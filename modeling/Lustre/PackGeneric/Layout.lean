import Mathlib
import Lustre.PackGeneric.Spec
import Lustre.PackGeneric.Pack

/-! # The layout of a built message, and what shrinking and growing keep

A message is laid out (`MsgHolds m mem cs`) when its memory is the header,
then one slot per buffer of the buffer's padded length that starts with the
buffer's bytes `cs`, then whatever follows (`MsgMem`). The layout is the
invariant of the sending side:

* `lustreInitMsgV2_holds`: `lustre_init_msg_v2` lays out the buffers it is
  given, by the loop lemma `initMsgBufs_spec`;
* `lustreShrinkMsgV2_holds`, `lustreGrowMsgV2_holds`: shrinking with
  `move_data` and growing within the memory keep a message laid out, with
  the other buffers and the front of the changed one as they were;
* `MsgHolds.decodes`: on a laid out message whose size fits an `int`,
  `lustre_msg_buf_v2` finds each buffer's bytes;
* `lustre_msg_v2_resize_keeps_buffers` puts these together for a message
  that `lustre_init_msg_v2` builds.

The `__u32` offsets of `lustre_msg_buf_v2` wrap at `2^32` while the pointers
of the copy loop do not, so without the size bound the accessor reads the
wrong bytes (`lustre_init_msg_v2_wraps`).
-/

namespace Lustre.PackGeneric

open ByteCodec CArith

/-! ## Sizes -/

/-- The padded lengths of the `k` entries of `lens` from index `i`. -/
def paddedLens (lens : List UInt32) (i k : Nat) : Nat :=
  ∑ j ∈ Finset.range k, roundUp8 (lens.getD (i + j) 0).toNat

theorem paddedLens_succ (lens : List UInt32) (i k : Nat) :
    paddedLens lens i (k + 1) = roundUp8 (lens.getD i 0).toNat + paddedLens lens (i + 1) k := by
  simp only [paddedLens, Finset.sum_range_succ', Nat.add_zero]
  rw [Nat.add_comm]
  congr 1
  refine Finset.sum_congr rfl fun j _ => ?_
  rw [Nat.add_assoc, Nat.add_comm j 1, ← Nat.add_assoc]

/-- A header whose lengths are `lens` below `n` pads them to the same sum. -/
theorem paddedSum_eq_paddedLens {m : LustreMsgV2} {lens : List UInt32} {n : Nat}
    (h : ∀ k < n, m.buflen k = lens.getD k 0) : paddedSum m n = paddedLens lens 0 n :=
  Finset.sum_congr rfl fun k hk => by rw [h k (Finset.mem_range.mp hk), Nat.zero_add]

/-- A sum taken by a loop over `0..c-1`. -/
theorem foldl_add_range (f : Nat → Nat) : ∀ (c a : Nat),
    (List.range c).foldl (fun x j => x + f j) a = a + ∑ j ∈ Finset.range c, f j
  | 0, a => by simp
  | c + 1, a => by
    rw [List.range_succ, List.foldl_append, foldl_add_range f c a, Finset.sum_range_succ]
    simp [Nat.add_assoc]

/-- The header size, when it does not wrap. -/
theorem lustreMsgHdrSizeV2_toNat_of_lt {count : UInt32} (h : roundUp8 (32 + 4 * count.toNat) < 2 ^ 32) :
    (lustreMsgHdrSizeV2 count).toNat = roundUp8 (32 + 4 * count.toNat) := by
  have hc := count.toNat_lt
  have hoff : (buflensOffset count).toNat = 32 + 4 * count.toNat := by
    simp [buflensOffset, UInt64.toNat_add, UInt64.toNat_mul]
    omega
  have hround : (cfsSizeRound (buflensOffset count)).toNat = roundUp8 (32 + 4 * count.toNat) := by
    rw [cfsSizeRound_toNat] <;> rw [hoff]
    omega
  rw [lustreMsgHdrSizeV2, UInt64.toNat_toUInt32, hround, Nat.mod_eq_of_lt h]

/-- A message whose size, header and padded buffers, fits an `int`. -/
def MsgFits (m : LustreMsgV2) : Prop :=
  roundUp8 (32 + 4 * m.lmBufcount.toNat) + paddedSum m m.lmBufcount.toNat < 2 ^ 31

section Fits

variable {m : LustreMsgV2}

theorem MsgFits.hdr (h : MsgFits m) :
    (lustreMsgHdrSizeV2 m.lmBufcount).toNat = roundUp8 (32 + 4 * m.lmBufcount.toNat) :=
  lustreMsgHdrSizeV2_toNat_of_lt (by unfold MsgFits at h; omega)

theorem MsgFits.count_lt (h : MsgFits m) : m.lmBufcount.toNat < 2 ^ 31 := by
  have := le_roundUp8 (32 + 4 * m.lmBufcount.toNat)
  unfold MsgFits at h
  omega

/-- The offset of buffer `n` of a message that fits: no wrap. -/
theorem MsgFits.bufOffset_toNat (h : MsgFits m) {n : Nat} (hn : n ≤ m.lmBufcount.toNat) :
    (bufOffset m n).toNat = (lustreMsgHdrSizeV2 m.lmBufcount).toNat + paddedSum m n := by
  have hmono := paddedSum_mono m hn
  rw [PackGeneric.bufOffset_toNat, Nat.mod_eq_of_lt]
  rw [h.hdr]
  unfold MsgFits at h
  omega

end Fits

/-- `lustre_msg_size_v2(msg->lm_bufcount, msg->lm_buflens)` is the offset
after the last buffer. -/
theorem lustreMsgSizeV2_eq_bufOffset {m : LustreMsgV2} (hpos : 0 < m.lmBufcount.toNat)
    (hlt : m.lmBufcount.toNat < 2 ^ 31) :
    lustreMsgSizeV2 (narrowInt m.lmBufcount.toNat) m.lmBuflens = some (bufOffset m m.lmBufcount.toNat) := by
  have hofInt : UInt32.ofInt (m.lmBufcount.toNat : Int) = m.lmBufcount := by
    have := m.lmBufcount.toNat_lt
    apply UInt32.toNat_inj.mp
    rw [toNat_ofInt_of_lt (by omega) (by omega), Int.toNat_natCast]
  rw [narrowInt_of_lt hlt, lustreMsgSizeV2, if_neg (by omega), Int.toNat_natCast, hofInt]
  rfl

/-- What shrink and grow return on a message that fits: its size. -/
theorem msgSizeRet_of_fits {m : LustreMsgV2} (hpos : 0 < m.lmBufcount.toNat) (hfit : MsgFits m) :
    msgSizeRet m = some (((lustreMsgHdrSizeV2 m.lmBufcount).toNat + paddedSum m m.lmBufcount.toNat : Nat) : Int) := by
  have hoff := hfit.bufOffset_toNat (Nat.le_refl _)
  have hsmall : (lustreMsgHdrSizeV2 m.lmBufcount).toNat + paddedSum m m.lmBufcount.toNat < 2 ^ 31 := by
    rw [hfit.hdr]
    exact hfit
  rw [msgSizeRet, lustreMsgSizeV2_eq_bufOffset hpos hfit.count_lt, Option.map_some, hoff,
    narrowInt_of_lt hsmall]

/-- `lustre_msg_size_v2` of a message that fits, read as a number, is its
size. -/
theorem lustreMsgSizeV2_of_fits {m : LustreMsgV2} (hpos : 0 < m.lmBufcount.toNat) (hfit : MsgFits m) :
    (lustreMsgSizeV2 (m.lmBufcount.toNat : Int) m.lmBuflens).map (fun size => (size.toNat : Int)) =
      some (((lustreMsgHdrSizeV2 m.lmBufcount).toNat + paddedSum m m.lmBufcount.toNat : Nat) : Int) := by
  rw [← narrowInt_of_lt hfit.count_lt, lustreMsgSizeV2_eq_bufOffset hpos hfit.count_lt, Option.map_some,
    hfit.bufOffset_toNat (Nat.le_refl _)]

/-! ## The layout -/

/-- The message memory cut as the lengths say: the header, one slot per
buffer, and what follows. -/
structure MsgMem where
  hdr : List UInt8
  slots : List (List UInt8)
  rest : List UInt8

def MsgMem.bytes (L : MsgMem) : List UInt8 := L.hdr ++ L.slots.flatten ++ L.rest

/-- `L` lays out the message `m` whose buffers hold `cs`: a slot per buffer,
of the padded length, starting with the buffer's bytes. -/
structure MsgMem.Lays (L : MsgMem) (m : LustreMsgV2) (cs : List (List UInt8)) : Prop where
  hdr_length : L.hdr.length = (lustreMsgHdrSizeV2 m.lmBufcount).toNat
  slots_length : L.slots.length = m.lmBufcount.toNat
  contents_length : cs.length = m.lmBufcount.toNat
  buflens_length : m.lmBufcount.toNat ≤ m.lmBuflens.length
  slot_length : ∀ k < m.lmBufcount.toNat, (L.slots.getD k []).length = roundUp8 (m.buflen k).toNat
  slot_take : ∀ k < m.lmBufcount.toNat, (L.slots.getD k []).take (m.buflen k).toNat = cs.getD k []

/-- The memory `mem` holds the message `m` with buffers `cs`. -/
def MsgHolds (m : LustreMsgV2) (mem : List UInt8) (cs : List (List UInt8)) : Prop :=
  ∃ L : MsgMem, L.bytes = mem ∧ L.Lays m cs

section Lays

variable {L : MsgMem} {m : LustreMsgV2} {cs : List (List UInt8)}

/-- The slots before buffer `k` take the padded lengths before it. -/
theorem MsgMem.Lays.take_flatten_length (hL : L.Lays m cs) :
    ∀ k ≤ m.lmBufcount.toNat, (L.slots.take k).flatten.length = paddedSum m k
  | 0, _ => by simp [paddedSum]
  | k + 1, hk => by
    have hlt : k < L.slots.length := by rw [hL.slots_length]; omega
    have hget : L.slots[k]? = some (L.slots.getD k []) := by
      simp [List.getD_eq_getElem?_getD, List.getElem?_eq_getElem hlt]
    rw [List.take_add_one, hget, Option.toList_some, List.flatten_append, List.length_append,
      hL.take_flatten_length k (by omega), List.flatten_singleton, hL.slot_length k (by omega)]
    exact (Finset.sum_range_succ _ _).symm

theorem MsgMem.Lays.take_all (hL : L.Lays m cs) : L.slots = L.slots.take m.lmBufcount.toNat := by
  rw [← hL.slots_length, List.take_length]

/-- The memory split at buffer `k`: what comes before its slot, the slot, and
the slots after it. -/
theorem MsgMem.Lays.bytes_split (hL : L.Lays m cs) {k : Nat} (hk : k < m.lmBufcount.toNat) :
    L.bytes = L.hdr ++ (L.slots.take k).flatten ++ L.slots.getD k [] ++
      ((L.slots.drop (k + 1)).flatten ++ L.rest) := by
  rw [MsgMem.bytes, flatten_eq_take_getD_drop (by rw [hL.slots_length]; exact hk)]
  simp only [List.append_assoc]

/-- The slots after buffer `k` take the padded lengths after it. -/
theorem MsgMem.Lays.drop_flatten_length (hL : L.Lays m cs) {k : Nat} (hk : k < m.lmBufcount.toNat) :
    (L.slots.drop (k + 1)).flatten.length = paddedSum m m.lmBufcount.toNat - paddedSum m (k + 1) := by
  have hall := hL.take_flatten_length m.lmBufcount.toNat (Nat.le_refl _)
  have hpre := hL.take_flatten_length (k + 1) (by omega)
  rw [← hL.take_all] at hall
  have hsplit : L.slots.flatten.length =
      (L.slots.take (k + 1)).flatten.length + (L.slots.drop (k + 1)).flatten.length := by
    rw [← List.length_append, ← List.flatten_append, List.take_append_drop]
  omega

/-- The memory holds the header, the padded buffers and the rest. -/
theorem MsgMem.Lays.bytes_length (hL : L.Lays m cs) :
    L.bytes.length = (lustreMsgHdrSizeV2 m.lmBufcount).toNat + paddedSum m m.lmBufcount.toNat + L.rest.length := by
  have hall := hL.take_flatten_length m.lmBufcount.toNat (Nat.le_refl _)
  rw [← hL.take_all] at hall
  rw [MsgMem.bytes, List.length_append, List.length_append, hall, hL.hdr_length]

end Lays

/-! ## Reading a buffer back -/

/-- `lustre_msg_buf_v2(m, n, lm_buflens[n])` points at `bytes` in `mem`. -/
def Decodes (m : LustreMsgV2) (mem : List UInt8) (n : Nat) (bytes : List UInt8) : Prop :=
  ∃ off, lustreMsgBufV2 m (UInt32.ofNat n) (m.buflen n) = some (some off) ∧
    readBytes mem off.toNat (m.buflen n).toNat = bytes

/-- On a laid out message that fits, each buffer reads back. -/
theorem MsgHolds.decodes {m : LustreMsgV2} {mem : List UInt8} {cs : List (List UInt8)}
    (h : MsgHolds m mem cs) (hfit : MsgFits m) {n : Nat} (hn : n < m.lmBufcount.toNat) :
    Decodes m mem n (cs.getD n []) := by
  obtain ⟨L, rfl, hL⟩ := h
  have hcount := hfit.count_lt
  have hnat : (UInt32.ofNat n).toNat = n :=
    UInt32.toNat_ofNat_of_lt' (Nat.lt_trans (show n < 2 ^ 31 by omega) (by decide))
  have hne : m.lmBufcount ≠ 0 := fun h0 => by rw [h0] at hn; simp at hn
  have hlt : ¬ UInt32.ofNat n ≥ m.lmBufcount := by
    rw [ge_iff_le, UInt32.le_iff_toNat_le, hnat]
    omega
  refine ⟨bufOffset m n, ?_, ?_⟩
  · have hmin : ¬ m.buflen n < m.buflen n := fun h => absurd (UInt32.lt_iff_toNat_lt.mp h) (Nat.lt_irrefl _)
    rw [lustreMsgBufV2, if_neg hne, if_neg hlt, hnat, if_neg hmin]
  · have hslot := hL.slot_length n hn
    rw [hfit.bufOffset_toNat (by omega), ← hL.hdr_length, ← hL.take_flatten_length n (by omega),
      MsgMem.bytes, readBytes_flatten (by rw [hL.slots_length]; exact hn) (by rw [hslot]; exact le_roundUp8 _),
      hL.slot_take n hn]

/-! ## `lustre_init_msg_v2` -/

/-- The copy loop, from buffer `i` with `k` left, writing at the end of `P`:
each buffer goes at the front of a slot of its padded length, and the slots
follow `P` in order. Induction on `k`; the invariant is that the loop writes
just past what it has laid out. -/
theorem initMsgBufs_spec (lens : List UInt32) (bs : List (List UInt8)) :
    ∀ (k i : Nat) (P R : List UInt8), i + k ≤ bs.length →
      (∀ j < k, (bs.getD (i + j) []).length = (lens.getD (i + j) 0).toNat) →
      paddedLens lens i k ≤ R.length →
      ∃ (new : List (List UInt8)) (R' : List UInt8),
        initMsgBufs lens (bs.map some) k i P.length (P ++ R) = P ++ new.flatten ++ R' ∧
        new.length = k ∧
        ∀ j < k, (new.getD j []).length = roundUp8 (lens.getD (i + j) 0).toNat ∧
          (new.getD j []).take (lens.getD (i + j) 0).toNat = bs.getD (i + j) []
  | 0, i, P, R, _, _, _ => ⟨[], R, by simp [initMsgBufs], rfl, fun j hj => absurd hj (Nat.not_lt_zero j)⟩
  | k + 1, i, P, R, hi, hlen, hR => by
    set b := bs.getD i [] with hb
    set len := (lens.getD i 0).toNat with hlen_def
    set r := roundUp8 len with hr
    have hblen : b.length = len := hlen 0 (by omega)
    have hroom : r + paddedLens lens (i + 1) k ≤ R.length := by
      rw [paddedLens_succ] at hR
      exact hR
    have hlr : len ≤ r := le_roundUp8 len
    -- the buffer, then the padding the memory held, make the slot
    set slot := b ++ (R.drop len).take (r - len) with hslot
    have hslot_len : slot.length = r := by simp [hslot, hblen]; omega
    have hget : (bs.map some).getD i none = some b := by
      simp [hb, List.getD_eq_getElem?_getD, List.getElem?_eq_getElem (show i < bs.length by omega)]
    have hwrite : writeBytes (P ++ R) P.length (readBytes b 0 len) = (P ++ slot) ++ R.drop r := by
      have hread : readBytes b 0 len = b := by
        rw [readBytes, List.drop_zero, ← hblen, List.take_length]
      have hdrop : R.drop len = (R.drop len).take (r - len) ++ R.drop r := by
        conv_lhs => rw [← List.take_append_drop (r - len) (R.drop len)]
        rw [List.drop_drop, Nat.add_sub_cancel' hlr]
      rw [hread, writeBytes_append, hblen, hdrop, hslot]
      simp only [List.append_assoc]
    have hptr : P.length + (cfsSizeRound (lens.getD i 0).toUInt64).toNat = (P ++ slot).length := by
      rw [cfsSizeRound_toUInt64, List.length_append, hslot_len]
    obtain ⟨new, R', hrun, hnew, hslots⟩ := initMsgBufs_spec lens bs k (i + 1) (P ++ slot) (R.drop r)
      (by omega) (fun j hj => by rw [Nat.add_right_comm]; exact hlen (j + 1) (by omega))
      (by simp; omega)
    refine ⟨slot :: new, R', ?_, by simp [hnew], ?_⟩
    · simp only [initMsgBufs, hget]
      rw [hwrite, hptr, hrun]
      simp only [List.flatten_cons, List.append_assoc]
    · intro j hj
      cases j with
      | zero =>
        refine ⟨by rw [List.getD_cons_zero, Nat.add_zero]; exact hslot_len, ?_⟩
        simp only [List.getD_cons_zero, Nat.add_zero, hslot]
        rw [← hlen_def, ← hblen, List.take_left]
      | succ j =>
        obtain ⟨h1, h2⟩ := hslots j (by omega)
        rw [List.getD_cons_succ, Nat.add_comm j 1, ← Nat.add_assoc]
        exact ⟨h1, h2⟩

/-- `lustre_init_msg_v2` on `count` buffers `bs` of the lengths `lens`, into
memory with room for the message, lays the buffers out; and
`lustre_packed_msg_size` of the message is `lustre_msg_size_v2(count, lens)`. -/
theorem lustreInitMsgV2_holds (m : LustreMsgV2) (mem : List UInt8) {count : Int} (lens : List UInt32)
    (bs : List (List UInt8)) (hpos : 0 < count) (hint : count < 2 ^ 31) (hbs : bs.length = count.toNat)
    (hlen : ∀ k < count.toNat, (bs.getD k []).length = (lens.getD k 0).toNat)
    (hmem : (lustreMsgHdrSizeV2 (UInt32.ofInt count)).toNat + paddedLens lens 0 count.toNat ≤ mem.length) :
    ∃ m' mem', lustreInitMsgV2 m mem count lens (some (bs.map some)) = some (m', mem') ∧
      m'.lmBufcount.toNat = count.toNat ∧ (∀ k < count.toNat, m'.buflen k = lens.getD k 0) ∧
      MsgHolds m' mem' bs ∧ lustrePackedMsgSize m' = lustreMsgSizeV2 count lens := by
  set hdr := (lustreMsgHdrSizeV2 (UInt32.ofInt count)).toNat with hhdr
  have hcount : (UInt32.ofInt count).toNat = count.toNat := toNat_ofInt_of_lt (by omega) (by omega)
  have hsplit : mem = mem.take hdr ++ mem.drop hdr := (List.take_append_drop _ _).symm
  have hP : (mem.take hdr).length = hdr := by simp; omega
  obtain ⟨new, R', hrun, hnew, hslots⟩ := initMsgBufs_spec lens bs count.toNat 0 (mem.take hdr) (mem.drop hdr)
    (by omega) (fun j hj => by rw [Nat.zero_add]; exact hlen j hj) (by simp; omega)
  set m' : LustreMsgV2 := { m with
    lmBufcount := UInt32.ofInt count
    lmMagic := lustreMsgMagicV2
    lmBuflens := (List.range count.toNat).map (fun i => lens.getD i 0) ++ m.lmBuflens.drop count.toNat }
    with hm'
  have hbuflen : ∀ k < count.toNat, m'.buflen k = lens.getD k 0 := by
    intro k hk
    have hk' : k < ((List.range count.toNat).map fun i => lens.getD i 0).length := by simpa using hk
    rw [LustreMsgV2.buflen, List.getD_eq_getElem?_getD, List.getElem?_append_left hk', List.getElem?_map,
      List.getElem?_range hk]
    rfl
  refine ⟨m', mem.take hdr ++ new.flatten ++ R', ?_, hcount, hbuflen, ?_, ?_⟩
  · rw [hP, ← hsplit] at hrun
    rw [lustreInitMsgV2, if_neg (by omega)]
    show some (m', initMsgBufs lens (bs.map some) count.toNat 0 hdr mem) = _
    rw [hrun]
  · refine ⟨⟨mem.take hdr, new, R'⟩, rfl, ?_⟩
    exact {
      hdr_length := hP
      slots_length := by rw [hnew, hcount]
      contents_length := by rw [hbs, hcount]
      buflens_length := by simp [hm', hcount]
      slot_length := fun k hk => by
        rw [hcount] at hk
        rw [hbuflen k hk, (hslots k hk).1, Nat.zero_add]
      slot_take := fun k hk => by
        rw [hcount] at hk
        have := (hslots k hk).2
        rw [Nat.zero_add] at this
        rw [hbuflen k hk, this] }
  · -- `lm_bufcount` goes back to the same `int`, and the lengths agree below it
    have hnarrow : narrowInt m'.lmBufcount.toNat = count := by
      rw [hcount, narrowInt_of_lt (by omega), Int.toNat_of_nonneg (by omega)]
    rw [lustrePackedMsgSize, if_pos rfl, hnarrow, lustreMsgSizeV2, lustreMsgSizeV2]
    split
    · rfl
    · congr 1
      apply List.foldl_ext
      intro a i hi
      rw [← LustreMsgV2.buflen, hbuflen i (List.mem_range.mp hi)]

/-! ## Changing the length of one buffer -/

theorem roundUp8_mono {a b : Nat} (h : a ≤ b) : roundUp8 a ≤ roundUp8 b := by
  unfold roundUp8
  omega

section SetBuflen

variable {m : LustreMsgV2} {segment newlen : UInt32}

@[simp] theorem setBuflen_lmBufcount : (setBuflen m segment newlen).lmBufcount = m.lmBufcount := rfl

theorem setBuflen_buflen (hb : segment.toNat < m.lmBuflens.length) (k : Nat) :
    (setBuflen m segment newlen).buflen k = if k = segment.toNat then newlen else m.buflen k := by
  simp only [setBuflen, LustreMsgV2.buflen, List.getD_eq_getElem?_getD, List.getElem?_set, hb]
  by_cases hk : k = segment.toNat
  · simp [hk]
  · simp [hk, Ne.symm hk]

/-- Before the segment the padded lengths are the old ones. -/
theorem paddedSum_setBuflen_of_le (hb : segment.toNat < m.lmBuflens.length) {k : Nat}
    (hk : k ≤ segment.toNat) : paddedSum (setBuflen m segment newlen) k = paddedSum m k := by
  refine Finset.sum_congr rfl fun i hi => ?_
  have : i ≠ segment.toNat := by have := Finset.mem_range.mp hi; omega
  rw [setBuflen_buflen hb, if_neg this]

/-- Past the segment the padded lengths trade the old padded length for the
new one. -/
theorem paddedSum_setBuflen_of_lt (hb : segment.toNat < m.lmBuflens.length) {k : Nat}
    (hk : segment.toNat < k) :
    paddedSum (setBuflen m segment newlen) k + roundUp8 (m.buflen segment.toNat).toNat =
      paddedSum m k + roundUp8 newlen.toNat := by
  have hmem : segment.toNat ∈ Finset.range k := Finset.mem_range.mpr hk
  have hrest : ∑ i ∈ (Finset.range k).erase segment.toNat, roundUp8 ((setBuflen m segment newlen).buflen i).toNat =
      ∑ i ∈ (Finset.range k).erase segment.toNat, roundUp8 (m.buflen i).toNat := by
    refine Finset.sum_congr rfl fun i hi => ?_
    rw [setBuflen_buflen hb, if_neg (Finset.ne_of_mem_erase hi)]
  unfold paddedSum
  rw [← Finset.add_sum_erase _ _ hmem, ← Finset.add_sum_erase _ _ hmem, hrest, setBuflen_buflen hb,
    if_pos rfl]
  omega

/-- Setting a length to what it was leaves the header as it was. -/
theorem setBuflen_self (hb : segment.toNat < m.lmBuflens.length) :
    setBuflen m segment (m.buflen segment.toNat) = m := by
  cases m
  simp only [setBuflen, LustreMsgV2.buflen, LustreMsgV2.mk.injEq, true_and]
  rw [List.getD_eq_getElem?_getD, List.getElem?_eq_getElem hb, Option.getD_some, List.set_getElem_self]

/-- Shrinking a buffer keeps a message that fits fitting. -/
theorem MsgFits.setBuflen_of_le (hfit : MsgFits m) (hb : segment.toNat < m.lmBuflens.length)
    (hs : segment.toNat < m.lmBufcount.toNat) (hle : newlen.toNat ≤ (m.buflen segment.toNat).toNat) :
    MsgFits (setBuflen m segment newlen) := by
  have hpsum := @paddedSum_setBuflen_of_lt m segment newlen hb _ hs
  have hrr := roundUp8_mono hle
  unfold MsgFits at hfit ⊢
  rw [setBuflen_lmBufcount]
  omega

/-- A message that fits once a buffer has grown fits before. -/
theorem MsgFits.of_setBuflen (hfit : MsgFits (setBuflen m segment newlen))
    (hb : segment.toNat < m.lmBuflens.length) (hs : segment.toNat < m.lmBufcount.toNat)
    (hle : (m.buflen segment.toNat).toNat ≤ newlen.toNat) : MsgFits m := by
  have hpsum := @paddedSum_setBuflen_of_lt m segment newlen hb _ hs
  have hrr := roundUp8_mono hle
  unfold MsgFits at hfit ⊢
  rw [setBuflen_lmBufcount] at hfit
  omega

end SetBuflen

section Tail

variable {m : LustreMsgV2} {segment : UInt32}

/-- `lustre_msg_buf_v2(msg, segment + 1, 0)` for a buffer after the segment. -/
theorem lustreMsgBufV2_next (hs : segment.toNat + 1 < m.lmBufcount.toNat) :
    lustreMsgBufV2 m (segment + 1) 0 = some (some (bufOffset m (segment.toNat + 1))) := by
  have hc := m.lmBufcount.toNat_lt
  have hnext : (segment + 1).toNat = segment.toNat + 1 := by
    rw [UInt32.toNat_add, UInt32.toNat_one, Nat.mod_eq_of_lt (by omega)]
  have hne : m.lmBufcount ≠ 0 := fun h0 => by rw [h0] at hs; simp at hs
  have hlt : ¬ segment + 1 ≥ m.lmBufcount := by
    rw [ge_iff_le, UInt32.le_iff_toNat_le, hnext]
    omega
  have hmin : ¬ m.buflen (segment + 1).toNat < 0 := fun h => absurd (UInt32.lt_iff_toNat_lt.mp h) (by simp)
  rw [lustreMsgBufV2, if_neg hne, if_neg hlt, if_neg hmin, hnext]

/-- `tail_len` is the padded length of the buffers after the segment. -/
theorem tailLen_of_fits (hfit : MsgFits m) (hs : segment.toNat < m.lmBufcount.toNat) :
    tailLen m segment = ((paddedSum m m.lmBufcount.toNat - paddedSum m (segment.toNat + 1) : Nat) : Int) := by
  have hsum : paddedSum m m.lmBufcount.toNat = paddedSum m (segment.toNat + 1) +
      ∑ j ∈ Finset.range (m.lmBufcount.toNat - (segment.toNat + 1)),
        roundUp8 (m.buflen (segment.toNat + 1 + j)).toNat := by
    have hsplit : m.lmBufcount.toNat = (segment.toNat + 1) + (m.lmBufcount.toNat - (segment.toNat + 1)) := by
      omega
    unfold paddedSum
    conv_lhs => rw [hsplit]
    rw [Finset.sum_range_add]
  have hsmall : paddedSum m m.lmBufcount.toNat < 2 ^ 31 := by unfold MsgFits at hfit; omega
  rw [tailLen]
  simp only [cfsSizeRound_toUInt64]
  rw [foldl_add_range, Nat.zero_add, narrowInt_of_lt (by omega)]
  congr 1
  omega

/-- The tail `lustre_shrink_msg_v2` and `lustre_grow_msg_v2` move. -/
theorem msgTail_of_fits (hfit : MsgFits m) (hs : segment.toNat < m.lmBufcount.toNat) :
    msgTail m segment =
      if segment.toNat + 1 < m.lmBufcount.toNat then
        some (some (bufOffset m (segment.toNat + 1),
          ((paddedSum m m.lmBufcount.toNat - paddedSum m (segment.toNat + 1) : Nat) : Int)))
      else some none := by
  have hc := m.lmBufcount.toNat_lt
  have hiff : m.lmBufcount > segment + 1 ↔ segment.toNat + 1 < m.lmBufcount.toNat := by
    rw [gt_iff_lt, UInt32.lt_iff_toNat_lt, UInt32.toNat_add, UInt32.toNat_one,
      Nat.mod_eq_of_lt (by omega)]
  unfold msgTail
  by_cases hnext : segment.toNat + 1 < m.lmBufcount.toNat
  · rw [if_pos (hiff.mpr hnext), if_pos hnext, lustreMsgBufV2_next hnext, tailLen_of_fits hfit hs]
    rfl
  · rw [if_neg (fun h => hnext (hiff.mp h)), if_neg hnext]

end Tail

section Slot

variable {L : MsgMem} {m : LustreMsgV2} {cs : List (List UInt8)} {segment newlen : UInt32}

/-- Replacing the segment's slot by `Y`, of the new padded length and with the
new contents `c` at its front, lays out the message with the new length,
whatever follows the last slot. -/
theorem MsgMem.Lays.holds_set (hL : L.Lays m cs) (hs : segment.toNat < m.lmBufcount.toNat)
    {Y c : List UInt8} (hY : Y.length = roundUp8 newlen.toNat) (hc : Y.take newlen.toNat = c)
    (R' : List UInt8) :
    MsgHolds (setBuflen m segment newlen)
      (L.hdr ++ (L.slots.take segment.toNat).flatten ++ Y ++ ((L.slots.drop (segment.toNat + 1)).flatten ++ R'))
      (cs.set segment.toNat c) := by
  have hb : segment.toNat < m.lmBuflens.length := Nat.lt_of_lt_of_le hs hL.buflens_length
  have hsl : segment.toNat < L.slots.length := by rw [hL.slots_length]; exact hs
  have hcl : segment.toNat < cs.length := by rw [hL.contents_length]; exact hs
  have hslot := getD_set_of_lt hsl Y []
  have hcs := getD_set_of_lt hcl c []
  refine ⟨⟨L.hdr, L.slots.set segment.toNat Y, R'⟩, ?_, ?_⟩
  · rw [MsgMem.bytes, flatten_set hsl]
    simp only [List.append_assoc]
  · exact {
      hdr_length := hL.hdr_length
      slots_length := by rw [List.length_set]; exact hL.slots_length
      contents_length := by rw [List.length_set]; exact hL.contents_length
      buflens_length := by simp only [setBuflen, List.length_set]; exact hL.buflens_length
      slot_length := fun k hk => by
        rw [hslot, setBuflen_buflen hb]
        by_cases hks : k = segment.toNat
        · rw [if_pos hks, if_pos hks, hY]
        · rw [if_neg hks, if_neg hks]
          exact hL.slot_length k hk
      slot_take := fun k hk => by
        rw [hslot, setBuflen_buflen hb, hcs]
        by_cases hks : k = segment.toNat
        · rw [if_pos hks, if_pos hks, if_pos hks, hc]
        · rw [if_neg hks, if_neg hks, if_neg hks]
          exact hL.slot_take k hk }

/-- The header of a laid out message has the lengths of its buffers. -/
theorem MsgHolds.buflens_length (h : MsgHolds m mem cs) : m.lmBufcount.toNat ≤ m.lmBuflens.length := by
  obtain ⟨L, -, hL⟩ := h
  exact hL.buflens_length

/-- On a message that fits, laid out with buffer `s` replaced by `c`, buffer
`s` reads back `c` and every other one what it held. -/
theorem MsgHolds.decodes_set {mem : List UInt8} {s : Nat} {c : List UInt8} (h : MsgHolds m mem (cs.set s c))
    (hfit : MsgFits m) (hs : s < m.lmBufcount.toNat) {n : Nat} (hn : n < m.lmBufcount.toNat) :
    Decodes m mem n (if n = s then c else cs.getD n []) := by
  have hcl : s < cs.length := by
    obtain ⟨L, -, hL⟩ := h
    have := hL.contents_length
    rw [List.length_set] at this
    omega
  rw [← getD_set_of_lt hcl c [] n]
  exact h.decodes hfit hn

end Slot

section Resize

variable {L : MsgMem} {m : LustreMsgV2} {cs : List (List UInt8)} {segment newlen : UInt32}

/-- The offset of the buffer after the segment once its length is `newlen`. -/
theorem bufOffset_setBuflen_next (hL : L.Lays m cs) (hfit' : MsgFits (setBuflen m segment newlen))
    (hs : segment.toNat < m.lmBufcount.toNat) :
    (bufOffset (setBuflen m segment newlen) (segment.toNat + 1)).toNat =
      L.hdr.length + (L.slots.take segment.toNat).flatten.length + roundUp8 newlen.toNat := by
  have hb : segment.toNat < m.lmBuflens.length := Nat.lt_of_lt_of_le hs hL.buflens_length
  have hsucc : paddedSum (setBuflen m segment newlen) (segment.toNat + 1) =
      paddedSum m segment.toNat + roundUp8 newlen.toNat := by
    rw [paddedSum, Finset.sum_range_succ, ← paddedSum, paddedSum_setBuflen_of_le hb (Nat.le_refl _),
      setBuflen_buflen hb, if_pos rfl]
  rw [hfit'.bufOffset_toNat (by simp only [setBuflen_lmBufcount]; omega), setBuflen_lmBufcount, hsucc,
    hL.hdr_length, hL.take_flatten_length _ (by omega), Nat.add_assoc]

/-- The offset of the buffer after the segment, before the change. -/
theorem bufOffset_next (hL : L.Lays m cs) (hfit : MsgFits m) (hs : segment.toNat < m.lmBufcount.toNat) :
    (bufOffset m (segment.toNat + 1)).toNat =
      L.hdr.length + (L.slots.take segment.toNat).flatten.length + (L.slots.getD segment.toNat []).length := by
  rw [hfit.bufOffset_toNat (by omega), paddedSum, Finset.sum_range_succ, ← paddedSum,
    hL.hdr_length, hL.take_flatten_length _ (by omega), hL.slot_length _ hs, Nat.add_assoc]

/-- A segment below the count passes the first check of shrink and grow. -/
theorem not_bufcount_le_segment (hs : segment.toNat < m.lmBufcount.toNat) : ¬ m.lmBufcount ≤ segment := by
  rw [UInt32.le_iff_toNat_le]
  omega

/-- What shrink and grow return once the segment has its new length. -/
theorem msgSizeRet_setBuflen (hfit' : MsgFits (setBuflen m segment newlen))
    (hs : segment.toNat < m.lmBufcount.toNat) :
    msgSizeRet (setBuflen m segment newlen) = some (((lustreMsgHdrSizeV2 m.lmBufcount).toNat +
      paddedSum (setBuflen m segment newlen) m.lmBufcount.toNat : Nat) : Int) := by
  have hret := msgSizeRet_of_fits (m := setBuflen m segment newlen)
    (by simp only [setBuflen_lmBufcount]; omega) hfit'
  rwa [setBuflen_lmBufcount] at hret

/-- `tail_len` is zero exactly when no bytes follow the segment's slot. -/
theorem MsgMem.Lays.tailLen_eq_zero_iff (hL : L.Lays m cs) (hs : segment.toNat < m.lmBufcount.toNat) :
    ((paddedSum m m.lmBufcount.toNat - paddedSum m (segment.toNat + 1) : Nat) : Int) = 0 ↔
      (L.slots.drop (segment.toNat + 1)).flatten = [] := by
  rw [← hL.drop_flatten_length hs, Nat.cast_eq_zero, List.length_eq_zero_iff]

/-- The byte count `memmove` gets from `tail_len`: the bytes after the
segment's slot. -/
theorem MsgMem.Lays.tailLen_toUInt64 (hL : L.Lays m cs) (hfit : MsgFits m)
    (hs : segment.toNat < m.lmBufcount.toNat) :
    (UInt64.ofInt ((paddedSum m m.lmBufcount.toNat - paddedSum m (segment.toNat + 1) : Nat) : Int)).toNat =
      (L.slots.drop (segment.toNat + 1)).flatten.length := by
  have hTlen := hL.drop_flatten_length hs
  have hsmall : (L.slots.drop (segment.toNat + 1)).flatten.length < 2 ^ 31 := by
    rw [hTlen]
    unfold MsgFits at hfit
    omega
  rw [← hTlen, toNat_ofInt_natCast (Nat.lt_trans hsmall (by decide))]

/-- No slot follows the last buffer's. -/
theorem MsgMem.Lays.drop_flatten_last (hL : L.Lays m cs) (hnext : ¬ segment.toNat + 1 < m.lmBufcount.toNat) :
    (L.slots.drop (segment.toNat + 1)).flatten = [] := by
  rw [List.drop_eq_nil_of_le (by rw [hL.slots_length]; omega), List.flatten_nil]

end Resize

/-- `lustre_shrink_msg_v2` with `move_data` on a laid out message that fits:
the message is laid out with the new length, the other buffers as they were
and the segment cut to its first `newlen` bytes, and the new size is
returned. -/
theorem lustreShrinkMsgV2_holds {m : LustreMsgV2} {mem : List UInt8} {cs : List (List UInt8)}
    (h : MsgHolds m mem cs) (hfit : MsgFits m) {segment newlen : UInt32}
    (hseg : segment.toNat < m.lmBufcount.toNat) (hle : newlen ≤ m.buflen segment.toNat) :
    ∃ mem' ret, lustreShrinkMsgV2 m mem segment newlen true = some (setBuflen m segment newlen, mem', ret) ∧
      MsgHolds (setBuflen m segment newlen) mem'
        (cs.set segment.toNat ((cs.getD segment.toNat []).take newlen.toNat)) ∧
      ret = (((lustreMsgHdrSizeV2 m.lmBufcount).toNat +
        paddedSum (setBuflen m segment newlen) m.lmBufcount.toNat : Nat) : Int) := by
  obtain ⟨L, rfl, hL⟩ := h
  have hb : segment.toNat < m.lmBuflens.length := Nat.lt_of_lt_of_le hseg hL.buflens_length
  have hnew : newlen.toNat ≤ (m.buflen segment.toNat).toNat := UInt32.le_iff_toNat_le.mp hle
  have hrr : roundUp8 newlen.toNat ≤ roundUp8 (m.buflen segment.toNat).toNat := roundUp8_mono hnew
  have hX : (L.slots.getD segment.toNat []).length = roundUp8 (m.buflen segment.toNat).toNat :=
    hL.slot_length _ hseg
  have hsplit := hL.bytes_split hseg
  -- the new slot is the front of the old one
  have hY : ((L.slots.getD segment.toNat []).take (roundUp8 newlen.toNat)).length = roundUp8 newlen.toNat := by
    rw [List.length_take, hX, Nat.min_eq_left hrr]
  have hYc : ((L.slots.getD segment.toNat []).take (roundUp8 newlen.toNat)).take newlen.toNat =
      (cs.getD segment.toNat []).take newlen.toNat := by
    rw [List.take_take, Nat.min_eq_left (le_roundUp8 _), ← hL.slot_take _ hseg, List.take_take,
      Nat.min_eq_left hnew]
  have hholds := hL.holds_set hseg hY hYc
  -- the message still fits, and the call returns its new size
  have hfit' : MsgFits (setBuflen m segment newlen) := hfit.setBuflen_of_le hb hseg hnew
  have hret := msgSizeRet_setBuflen hfit' hseg
  have hnewpos := bufOffset_setBuflen_next hL hfit' hseg
  have htail := bufOffset_next hL hfit hseg
  set X := L.slots.getD segment.toNat [] with hX_def
  set T := (L.slots.drop (segment.toNat + 1)).flatten
  set r' := roundUp8 newlen.toNat with hr'_def
  have hnlt := not_bufcount_le_segment hseg
  have hnlt2 : ¬ m.buflen segment.toNat < newlen := fun h => absurd (UInt32.lt_iff_toNat_lt.mp h) (by omega)
  by_cases heq : m.buflen segment.toNat = newlen
  · -- nothing moves, and the header is as it was
    have hm' : setBuflen m segment newlen = m := by
      rw [← heq]
      exact setBuflen_self hb
    have hr' : r' = X.length := by rw [hX, hr'_def, heq]
    refine ⟨L.bytes, _, ?_, ?_, rfl⟩
    · rw [lustreShrinkMsgV2, if_neg hnlt, if_neg hnlt2, if_pos heq]
      rw [hm'] at hret ⊢
      rw [hret]
      rfl
    · have := hholds L.rest
      rwa [hr', List.take_length, ← hsplit] at this
  · unfold lustreShrinkMsgV2
    rw [if_neg hnlt, if_neg hnlt2, if_neg heq, if_pos rfl, msgTail_of_fits hfit hseg]
    -- without a tail to move the memory stays, and it is the new layout
    have hstay : T = [] → MsgHolds (setBuflen m segment newlen) L.bytes
        (cs.set segment.toNat ((cs.getD segment.toNat []).take newlen.toNat)) := by
      intro hT0
      have := hholds (X.drop r' ++ L.rest)
      rw [hT0, List.nil_append, ← List.append_assoc (_ ++ X.take r') (X.drop r') L.rest,
        List.append_assoc (_ ++ _) (X.take r'), List.take_append_drop] at this
      rwa [hsplit, hT0, List.nil_append]
    by_cases hnext : segment.toNat + 1 < m.lmBufcount.toNat
    · rw [if_pos hnext]
      dsimp only
      by_cases hT0 : T = []
      · rw [if_neg (not_not.mpr ((hL.tailLen_eq_zero_iff hseg).mpr hT0)), Option.bind_some, hret]
        exact ⟨L.bytes, _, rfl, hstay hT0, rfl⟩
      · rw [if_pos fun h => hT0 ((hL.tailLen_eq_zero_iff hseg).mp h), lustreMsgBufV2_next (m := setBuflen m segment newlen)
          (by simp only [setBuflen_lmBufcount]; exact hnext)]
        dsimp only
        have hle' : ¬ bufOffset (setBuflen m segment newlen) (segment.toNat + 1) > bufOffset m (segment.toNat + 1) := by
          rw [gt_iff_lt, UInt32.lt_iff_toNat_lt, hnewpos, htail]
          omega
        rw [if_neg hle']
        by_cases hsame : r' = X.length
        · -- the padded length is the same: nothing moves
          have hpos : bufOffset (setBuflen m segment newlen) (segment.toNat + 1) = bufOffset m (segment.toNat + 1) := by
            apply UInt32.toNat_inj.mp
            rw [hnewpos, htail, hsame]
          rw [if_neg (not_not.mpr hpos), Option.bind_some, hret]
          refine ⟨L.bytes, _, rfl, ?_, rfl⟩
          have := hholds L.rest
          rwa [hsame, List.take_length, ← hsplit] at this
        · have hpos : bufOffset (setBuflen m segment newlen) (segment.toNat + 1) ≠ bufOffset m (segment.toNat + 1) := by
            intro h
            have := congrArg UInt32.toNat h
            rw [hnewpos, htail] at this
            omega
          rw [if_pos hpos, Option.bind_some, hret]
          refine ⟨_, _, rfl, ?_, rfl⟩
          -- the tail moves down over the end of the old slot
          have hmove : memmove L.bytes (bufOffset (setBuflen m segment newlen) (segment.toNat + 1)).toNat
              (bufOffset m (segment.toNat + 1)).toNat T.length =
              L.hdr ++ (L.slots.take segment.toNat).flatten ++ X.take r' ++
                (T ++ (X.drop r' ++ (T ++ L.rest)).drop T.length) := by
            have hmem : L.bytes =
                (L.hdr ++ (L.slots.take segment.toNat).flatten ++ X.take r') ++ X.drop r' ++ (T ++ L.rest) := by
              rw [hsplit, List.append_assoc (L.hdr ++ _) (X.take r'), List.take_append_drop]
            have hpre : (L.hdr ++ (L.slots.take segment.toNat).flatten ++ X.take r').length =
                (bufOffset (setBuflen m segment newlen) (segment.toNat + 1)).toNat := by
              rw [hnewpos, List.length_append, List.length_append, hY]
            have hsrc : (L.hdr ++ (L.slots.take segment.toNat).flatten ++ X.take r').length + (X.drop r').length =
                (bufOffset m (segment.toNat + 1)).toNat := by
              rw [htail, List.length_append, List.length_append, hY, List.length_drop]
              omega
            rw [hmem, ← hpre, ← hsrc, memmove_append (by simp), List.take_left]
            simp only [List.append_assoc]
          rw [hL.tailLen_toUInt64 hfit hseg, hmove]
          exact hholds _
    · rw [if_neg hnext]
      dsimp only
      rw [Option.bind_some, hret]
      exact ⟨L.bytes, _, rfl, hstay (hL.drop_flatten_last hnext), rfl⟩

/-- `lustre_grow_msg_v2` on a laid out message whose new size fits, in memory
with room for it: the message is laid out with the new length, the other
buffers as they were and the segment starting with its old bytes, and the
new size is returned. -/
theorem lustreGrowMsgV2_holds {m : LustreMsgV2} {mem : List UInt8} {cs : List (List UInt8)}
    (h : MsgHolds m mem cs) {segment newlen : UInt32} (hfit' : MsgFits (setBuflen m segment newlen))
    (hseg : segment.toNat < m.lmBufcount.toNat) (hle : m.buflen segment.toNat ≤ newlen)
    (hroom : (lustreMsgHdrSizeV2 m.lmBufcount).toNat + paddedSum (setBuflen m segment newlen) m.lmBufcount.toNat ≤
      mem.length) :
    ∃ mem' ret c, lustreGrowMsgV2 m mem segment newlen = some (setBuflen m segment newlen, mem', ret) ∧
      c.take (m.buflen segment.toNat).toNat = cs.getD segment.toNat [] ∧
      MsgHolds (setBuflen m segment newlen) mem' (cs.set segment.toNat c) ∧
      ret = (((lustreMsgHdrSizeV2 m.lmBufcount).toNat +
        paddedSum (setBuflen m segment newlen) m.lmBufcount.toNat : Nat) : Int) := by
  obtain ⟨L, rfl, hL⟩ := h
  have hb : segment.toNat < m.lmBuflens.length := Nat.lt_of_lt_of_le hseg hL.buflens_length
  have hold : (m.buflen segment.toNat).toNat ≤ newlen.toNat := UInt32.le_iff_toNat_le.mp hle
  have hrr : roundUp8 (m.buflen segment.toNat).toNat ≤ roundUp8 newlen.toNat := roundUp8_mono hold
  have hX : (L.slots.getD segment.toNat []).length = roundUp8 (m.buflen segment.toNat).toNat :=
    hL.slot_length _ hseg
  have hXold : (m.buflen segment.toNat).toNat ≤ (L.slots.getD segment.toNat []).length := by
    rw [hX]
    exact le_roundUp8 _
  have hsplit := hL.bytes_split hseg
  -- the old message fits too, and the call returns the new size
  have hpsum := @paddedSum_setBuflen_of_lt m segment newlen hb _ hseg
  have hfit : MsgFits m := hfit'.of_setBuflen hb hseg hold
  have hret := msgSizeRet_setBuflen hfit' hseg
  have hlen := hL.bytes_length
  have hnewpos := bufOffset_setBuflen_next hL hfit' hseg
  have htail := bufOffset_next hL hfit hseg
  set X := L.slots.getD segment.toNat [] with hX_def
  set T := (L.slots.drop (segment.toNat + 1)).flatten with hT_def
  -- the new slot is the old one and what follows it, up to the new padded length
  set d := roundUp8 newlen.toNat - X.length with hd_def
  have hd : d ≤ L.rest.length := by omega
  set Y := X ++ (T ++ L.rest).take d with hY_def
  have hY : Y.length = roundUp8 newlen.toNat := by
    rw [hY_def, List.length_append, List.length_take, List.length_append]
    omega
  have hYc : (Y.take newlen.toNat).take (m.buflen segment.toNat).toNat = cs.getD segment.toNat [] := by
    rw [List.take_take, Nat.min_eq_left hold, hY_def, List.take_append_of_le_length hXold,
      hL.slot_take _ hseg]
  have hholds := hL.holds_set hseg hY rfl
  have hnlt := not_bufcount_le_segment hseg
  have hngt : ¬ m.buflen segment.toNat > newlen := fun h => absurd (UInt32.lt_iff_toNat_lt.mp h) (by omega)
  by_cases heq : m.buflen segment.toNat = newlen
  · -- nothing moves, and the header and the buffers are as they were
    have hm' : setBuflen m segment newlen = m := by
      rw [← heq]
      exact setBuflen_self hb
    have hcl : segment.toNat < cs.length := by rw [hL.contents_length]; exact hseg
    have hcs : cs.set segment.toNat (cs.getD segment.toNat []) = cs := by
      rw [List.getD_eq_getElem?_getD, List.getElem?_eq_getElem hcl, Option.getD_some, List.set_getElem_self]
    refine ⟨L.bytes, _, cs.getD segment.toNat [], ?_, ?_, ?_, rfl⟩
    · rw [lustreGrowMsgV2, if_neg hnlt, if_neg hngt, if_pos heq]
      rw [hm'] at hret ⊢
      rw [hret]
      rfl
    · rw [← hL.slot_take _ hseg, List.take_take, Nat.min_self]
    · rw [hm', hcs]
      exact ⟨L, rfl, hL⟩
  · unfold lustreGrowMsgV2
    rw [if_neg hnlt, if_neg hngt, if_neg heq, msgTail_of_fits hfit hseg]
    -- without a tail to move the memory stays, and the new slot runs into what followed
    have hstay : T = [] → MsgHolds (setBuflen m segment newlen) L.bytes
        (cs.set segment.toNat (Y.take newlen.toNat)) := by
      intro hT0
      have := hholds ((T ++ L.rest).drop d)
      rw [← hT_def] at this
      rw [hsplit]
      simp only [hY_def, hT0, List.nil_append, List.append_assoc, List.take_append_drop] at this ⊢
      exact this
    by_cases hnext : segment.toNat + 1 < m.lmBufcount.toNat
    · rw [if_pos hnext]
      dsimp only
      by_cases hT0 : T = []
      · rw [if_neg (not_not.mpr ((hL.tailLen_eq_zero_iff hseg).mpr hT0)), Option.bind_some, hret]
        exact ⟨L.bytes, _, _, rfl, hYc, hstay hT0, rfl⟩
      · rw [if_pos fun h => hT0 ((hL.tailLen_eq_zero_iff hseg).mp h), lustreMsgBufV2_next (m := setBuflen m segment newlen)
          (by simp only [setBuflen_lmBufcount]; exact hnext)]
        dsimp only
        rw [Option.bind_some, hret]
        refine ⟨_, _, _, rfl, hYc, ?_, rfl⟩
        -- the tail moves up past the end of the new slot
        have hmove : memmove L.bytes (bufOffset (setBuflen m segment newlen) (segment.toNat + 1)).toNat
            (bufOffset m (segment.toNat + 1)).toNat T.length =
            L.hdr ++ (L.slots.take segment.toNat).flatten ++ Y ++ (T ++ (T ++ L.rest).drop (d + T.length)) := by
          have hmem : L.bytes = (L.hdr ++ (L.slots.take segment.toNat).flatten ++ X) ++ (T ++ L.rest) := hsplit
          have hpre : (L.hdr ++ (L.slots.take segment.toNat).flatten ++ X).length =
              (bufOffset m (segment.toNat + 1)).toNat := by
            rw [htail, List.length_append, List.length_append]
          have hdst : (L.hdr ++ (L.slots.take segment.toNat).flatten ++ X).length + d =
              (bufOffset (setBuflen m segment newlen) (segment.toNat + 1)).toNat := by
            rw [hnewpos, List.length_append, List.length_append]
            omega
          rw [hmem, ← hpre, ← hdst, memmove_append_forward (by rw [List.length_append]; omega), List.take_left]
          simp only [hY_def, List.append_assoc]
        rw [hL.tailLen_toUInt64 hfit hseg, hmove]
        exact hholds _
    · rw [if_neg hnext]
      dsimp only
      rw [Option.bind_some, hret]
      exact ⟨L.bytes, _, _, rfl, hYc, hstay (hL.drop_flatten_last hnext), rfl⟩

/-! ## What the sending side keeps -/

/-- A message that `lustre_init_msg_v2` builds from `count` buffers `bs` of
the lengths `lens`, whose size fits an `int`, into memory with room for it:
each buffer reads back, `lustre_packed_msg_size` is
`lustre_msg_size_v2(count, lens)`; and after `lustre_shrink_msg_v2` with
`move_data`, or `lustre_grow_msg_v2` to a size that fits into the memory,
every other buffer reads back as before, the changed one starts with its
old bytes up to the shorter length, and the size returned is
`lustre_msg_size_v2` of the new lengths. -/
theorem lustre_msg_v2_resize_keeps_buffers (m : LustreMsgV2) (mem : List UInt8) {count : Int}
    (lens : List UInt32) (bs : List (List UInt8)) (hpos : 0 < count) (hbs : bs.length = count.toNat)
    (hlen : ∀ k < count.toNat, (bs.getD k []).length = (lens.getD k 0).toNat)
    (hfit : roundUp8 (32 + 4 * count.toNat) + paddedLens lens 0 count.toNat < 2 ^ 31)
    (hmem : (lustreMsgHdrSizeV2 (UInt32.ofInt count)).toNat + paddedLens lens 0 count.toNat ≤ mem.length) :
    ∃ m' mem', lustreInitMsgV2 m mem count lens (some (bs.map some)) = some (m', mem') ∧
      (∀ n < count.toNat, Decodes m' mem' n (bs.getD n [])) ∧
      lustrePackedMsgSize m' = lustreMsgSizeV2 count lens ∧
      (∀ segment newlen, segment.toNat < count.toNat → newlen ≤ lens.getD segment.toNat 0 →
        ∃ m'' mem'' ret, lustreShrinkMsgV2 m' mem' segment newlen true = some (m'', mem'', ret) ∧
          (∀ n < count.toNat, m''.buflen n = if n = segment.toNat then newlen else lens.getD n 0) ∧
          (∀ n < count.toNat, n ≠ segment.toNat → Decodes m'' mem'' n (bs.getD n [])) ∧
          Decodes m'' mem'' segment.toNat ((bs.getD segment.toNat []).take newlen.toNat) ∧
          (lustreMsgSizeV2 count m''.lmBuflens).map (fun size => (size.toNat : Int)) = some ret) ∧
      (∀ segment newlen, segment.toNat < count.toNat → lens.getD segment.toNat 0 ≤ newlen →
        MsgFits (setBuflen m' segment newlen) →
        (lustreMsgHdrSizeV2 m'.lmBufcount).toNat + paddedSum (setBuflen m' segment newlen) count.toNat ≤
          mem'.length →
        ∃ m'' mem'' ret, lustreGrowMsgV2 m' mem' segment newlen = some (m'', mem'', ret) ∧
          (∀ n < count.toNat, m''.buflen n = if n = segment.toNat then newlen else lens.getD n 0) ∧
          (∀ n < count.toNat, n ≠ segment.toNat → Decodes m'' mem'' n (bs.getD n [])) ∧
          (∃ c, c.take (lens.getD segment.toNat 0).toNat = bs.getD segment.toNat [] ∧
            Decodes m'' mem'' segment.toNat c) ∧
          (lustreMsgSizeV2 count m''.lmBuflens).map (fun size => (size.toNat : Int)) = some ret) := by
  have hint : count < 2 ^ 31 := by
    have := le_roundUp8 (32 + 4 * count.toNat)
    omega
  obtain ⟨m', mem', hinit, hcount, hbuflen, hholds, hsize⟩ :=
    lustreInitMsgV2_holds m mem lens bs hpos hint hbs hlen hmem
  have hfit' : MsgFits m' := by
    unfold MsgFits
    rw [hcount, paddedSum_eq_paddedLens hbuflen]
    exact hfit
  have hb := hholds.buflens_length
  have hc : ((m'.lmBufcount.toNat : Nat) : Int) = count := by rw [hcount, Int.toNat_of_nonneg (by omega)]
  -- the lengths after a change, and the size the call returns
  have hlens' : ∀ segment newlen, segment.toNat < count.toNat → ∀ n < count.toNat,
      (setBuflen m' segment newlen).buflen n = if n = segment.toNat then newlen else lens.getD n 0 := by
    intro segment newlen hs n hn
    rw [setBuflen_buflen (by omega) n]
    split_ifs
    · rfl
    · exact hbuflen n hn
  have hret : ∀ segment newlen, MsgFits (setBuflen m' segment newlen) →
      (lustreMsgSizeV2 count (setBuflen m' segment newlen).lmBuflens).map (fun size => (size.toNat : Int)) =
        some (((lustreMsgHdrSizeV2 m'.lmBufcount).toNat +
          paddedSum (setBuflen m' segment newlen) m'.lmBufcount.toNat : Nat) : Int) := by
    intro segment newlen hfit''
    have := lustreMsgSizeV2_of_fits (by rw [setBuflen_lmBufcount]; omega) hfit''
    rwa [setBuflen_lmBufcount, hc] at this
  refine ⟨m', mem', hinit, fun n hn => hholds.decodes hfit' (by omega), hsize, ?_, ?_⟩
  · -- shrinking, with the tail moved down
    intro segment newlen hs hle
    have hs' : segment.toNat < m'.lmBufcount.toNat := by omega
    have hle' : newlen ≤ m'.buflen segment.toNat := by rw [hbuflen _ hs]; exact hle
    obtain ⟨mem'', ret, hshr, hh, hr⟩ := lustreShrinkMsgV2_holds hholds hfit' hs' hle'
    have hfit'' := hfit'.setBuflen_of_le (by omega) hs' (UInt32.le_iff_toNat_le.mp hle')
    refine ⟨_, mem'', ret, hshr, hlens' segment newlen hs, fun n hn hne => ?_, ?_, ?_⟩
    · have := hh.decodes_set hfit'' hs' (n := n) (by rw [setBuflen_lmBufcount]; omega)
      rwa [if_neg hne] at this
    · have := hh.decodes_set hfit'' hs' (n := segment.toNat) (by rw [setBuflen_lmBufcount]; omega)
      rwa [if_pos rfl] at this
    · rw [hret segment newlen hfit'', hr]
  · -- growing, into the room the memory has
    intro segment newlen hs hle hfit'' hroom
    have hs' : segment.toNat < m'.lmBufcount.toNat := by omega
    have hle' : m'.buflen segment.toNat ≤ newlen := by rw [hbuflen _ hs]; exact hle
    obtain ⟨mem'', ret, c, hgrow, hc', hh, hr⟩ :=
      lustreGrowMsgV2_holds hholds hfit'' hs' hle' (by rw [hcount]; exact hroom)
    refine ⟨_, mem'', ret, hgrow, hlens' segment newlen hs, fun n hn hne => ?_,
      ⟨c, by rwa [hbuflen _ hs] at hc', ?_⟩, ?_⟩
    · have := hh.decodes_set hfit'' hs' (n := n) (by rw [setBuflen_lmBufcount]; omega)
      rwa [if_neg hne] at this
    · have := hh.decodes_set hfit'' hs' (n := segment.toNat) (by rw [setBuflen_lmBufcount]; omega)
      rwa [if_pos rfl] at this
    · rw [hret segment newlen hfit'', hr]

/-- Two buffers of eight bytes; shrinking the first to four keeps the
second and the first four bytes of the first. -/
theorem lustre_msg_v2_resize_keeps_buffers_two :
    ∃ m' mem', lustreInitMsgV2 ⟨0, 0, 0, 0, 0, 0, 0, 0, []⟩ (List.replicate 64 0) 2 [8, 8]
        (some [some [1, 2, 3, 4, 5, 6, 7, 8], some [9, 10, 11, 12, 13, 14, 15, 16]]) = some (m', mem') ∧
      Decodes m' mem' 0 [1, 2, 3, 4, 5, 6, 7, 8] ∧ Decodes m' mem' 1 [9, 10, 11, 12, 13, 14, 15, 16] ∧
      ∃ m'' mem'' ret, lustreShrinkMsgV2 m' mem' 0 4 true = some (m'', mem'', ret) ∧
        Decodes m'' mem'' 1 [9, 10, 11, 12, 13, 14, 15, 16] ∧ Decodes m'' mem'' 0 [1, 2, 3, 4] := by
  obtain ⟨m', mem', hinit, hdec, -, hshrink, -⟩ := lustre_msg_v2_resize_keeps_buffers ⟨0, 0, 0, 0, 0, 0, 0, 0, []⟩
    (List.replicate 64 0) [8, 8] [[1, 2, 3, 4, 5, 6, 7, 8], [9, 10, 11, 12, 13, 14, 15, 16]]
    (show (0 : Int) < 2 by decide) rfl (by decide) (by decide) (by decide)
  obtain ⟨m'', mem'', ret, hshr, -, hother, hseg, -⟩ := hshrink 0 4 (by decide) (by decide)
  exact ⟨m', mem', hinit, hdec 0 (by decide), hdec 1 (by decide), m'', mem'', ret, hshr,
    hother 1 (by decide) (by decide), hseg⟩

/-! ## Without the size bound -/

/-- Two buffers whose padded lengths pass `2^32`, into memory with room for
both: the copy loop writes the second buffer past `2^32`, but
`lustre_msg_buf_v2` wraps its offset to 32, inside the header, and reads
other bytes. -/
theorem lustre_init_msg_v2_wraps :
    ∃ m' mem', lustreInitMsgV2 ⟨0, 0, 0, 0, 0, 0, 0, 0, []⟩ (List.replicate (2 ^ 32 + 40) 0) 2 [4294967288, 8]
        (some [some (List.replicate 4294967288 0), some (List.replicate 8 1)]) = some (m', mem') ∧
      ¬ Decodes m' mem' 1 (List.replicate 8 1) ∧
      (lustreMsgHdrSizeV2 (UInt32.ofInt 2)).toNat + paddedLens [4294967288, 8] 0 2 ≤ 2 ^ 32 + 40 := by
  have hinit : lustreInitMsgV2 ⟨0, 0, 0, 0, 0, 0, 0, 0, []⟩ (List.replicate (2 ^ 32 + 40) 0) 2 [4294967288, 8]
      (some [some (List.replicate 4294967288 0), some (List.replicate 8 1)]) =
      some (⟨2, 0, lustreMsgMagicV2, 0, 0, 0, 0, 0, [4294967288, 8]⟩,
        writeBytes (writeBytes (List.replicate (2 ^ 32 + 40) 0) 40
          (readBytes (List.replicate 4294967288 0) 0 (4294967288 : UInt32).toNat)) 4294967328
          (readBytes (List.replicate 8 1) 0 (8 : UInt32).toNat)) := by
    rw [lustreInitMsgV2, if_neg (by decide)]
    rfl
  have hroom : (lustreMsgHdrSizeV2 (UInt32.ofInt 2)).toNat + paddedLens [4294967288, 8] 0 2 ≤ 2 ^ 32 + 40 := by
    decide
  refine ⟨_, _, hinit, ?_, hroom⟩
  rintro ⟨off, hbuf, hread⟩
  -- the offset wraps to 32
  have hoff : lustreMsgBufV2 ⟨2, 0, lustreMsgMagicV2, 0, 0, 0, 0, 0, [4294967288, 8]⟩ (UInt32.ofNat 1) 8 =
      some (some 32) := by decide
  have hb1 : LustreMsgV2.buflen ⟨2, 0, lustreMsgMagicV2, 0, 0, 0, 0, 0, [4294967288, 8]⟩ 1 = 8 := rfl
  rw [hb1, hoff] at hbuf
  rw [hb1] at hread
  cases hbuf
  -- and there the second buffer is not: the memory holds what it held
  generalize hmem : (List.replicate (2 ^ 32 + 40) 0 : List UInt8) = mem at hread
  generalize hA : readBytes (List.replicate 4294967288 0) 0 (4294967288 : UInt32).toNat = A at hread
  have hAlen : A.length = 4294967288 := by
    rw [← hA, readBytes, List.drop_zero, List.length_take, List.length_replicate]
    simp
  have hlen : mem.length = 2 ^ 32 + 40 := by rw [← hmem, List.length_replicate]
  have hlen1 : (writeBytes mem 40 A).length = mem.length := length_writeBytes (by rw [hAlen, hlen]; decide)
  rw [readBytes_writeBytes_of_le (by rw [hlen1, hlen]; decide) (by decide),
    readBytes_writeBytes_of_le (by rw [hlen]; decide) (by decide)] at hread
  have hzero : readBytes mem (32 : UInt32).toNat (8 : UInt32).toNat = List.replicate 8 0 := by
    rw [← hmem, readBytes, List.drop_replicate, List.take_replicate]
    rfl
  rw [hzero] at hread
  exact absurd hread (by decide)

end Lustre.PackGeneric
