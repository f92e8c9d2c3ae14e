import Mathlib
import Lustre.Ptlrpc.At
import Lustre.Lib.Bytes
import Lustre.Lib.Run

/-! # Adaptive timeouts: the bins are a sliding-window maximum

What `at_measured` is for: after any run of samples, bin `i` holds the worst
sample whose time fell in the `i`-th window of `binlimit` seconds counting
back from `at_binstart` (`binMax`), the current timeout is the worst bin
brought within `at_min` and `at_max` (`atClamp`), and the worst timeout ever
is at least every sample.

The samples are kept beside the structure as the run's history; `AtInv`
relates the two and is kept by each of the three branches of `at_measured`
and by the bounds after them. Two facts carry the branches: the bounds
applied to the maximum of a sample and an already bounded value are the
bounds applied to the plain maximum (`atClamp_max_atClamp`), and moving the
bins over by `k` renames window `i - k` of the old start to window `i` of
the new one (`inBin_shift`).

Both need the tunables compared as `timeout_t` to be what they were set to:
`at_max` or `at_min` at `2^31` or above is read as a negative timeout, and
an `at_max` of `2^31` then brings every current timeout to `at_min`
(`at_measured_max_wraps`). The distance from `at_binstart` is cast to `u32`
and the number of bins it spans to `int`, so a sample must come less than
`2^30` seconds after the one before.
-/

namespace Lustre.Ptlrpc

/-! ## The windows -/

/-- The worst of some values, 0 when there are none. -/
def maxOf (l : List Int) : Int := l.foldr max 0

@[simp] theorem maxOf_nil : maxOf [] = 0 := rfl

@[simp] theorem maxOf_cons (x : Int) (l : List Int) : maxOf (x :: l) = max x (maxOf l) := rfl

theorem le_maxOf {l : List Int} {x : Int} (hx : x ∈ l) : x ≤ maxOf l :=
  List.le_max_of_le' 0 hx le_rfl

theorem maxOf_nonneg (l : List Int) : 0 ≤ maxOf l := by
  induction l with
  | nil => exact le_rfl
  | cons x l ih => exact le_max_of_le_right ih

theorem maxOf_le {l : List Int} {a : Int} (h0 : 0 ≤ a) (h : ∀ x ∈ l, x ≤ a) : maxOf l ≤ a := by
  induction l with
  | nil => exact h0
  | cons x l ih =>
    exact max_le (h x List.mem_cons_self) (ih fun y hy => h y (List.mem_cons_of_mem x hy))

theorem maxOf_append (l₁ l₂ : List Int) : maxOf (l₁ ++ l₂) = max (maxOf l₁) (maxOf l₂) := by
  induction l₁ with
  | nil => exact (max_eq_right (maxOf_nonneg l₂)).symm
  | cons x l ih => rw [List.cons_append, maxOf_cons, maxOf_cons, ih, max_assoc]

/-- Time `t` falls in window `i`: the `binlimit` seconds that start `i`
windows before `binstart`. -/
def InBin (binstart binlimit : Int) (i : Nat) (t : Int) : Prop :=
  binstart - i * binlimit ≤ t ∧ t < binstart - i * binlimit + binlimit

instance (binstart binlimit : Int) (i : Nat) (t : Int) : Decidable (InBin binstart binlimit i t) :=
  inferInstanceAs (Decidable (_ ∧ _))

/-- The worst of the samples `(time, value)` whose time falls in window `i`. -/
def binMax (samples : List (Int × Int)) (binstart binlimit : Int) (i : Nat) : Int :=
  maxOf ((samples.filter fun s => decide (InBin binstart binlimit i s.1)).map Prod.snd)

/-- The worst of the `AT_BINS` bins. -/
def histMax (hist : List Nat) : Int :=
  maxOf ((List.range atBins).map fun i => (hist.getD i 0 : Int))

/-- The current timeout the bins call for: the worst bin raised to `at_min`
and, unless `at_max` is 0, lowered to `at_max`. -/
def atClamp (tun : AtTunables) (x : Int) : Int :=
  max (if 0 < tun.atMax then min x tun.atMax else x) tun.atMin

/-- Moving the start of the windows on by `k` of them renames window
`i - k` to window `i`. -/
theorem inBin_shift {binstart binlimit t : Int} {k i : Nat} (hk : k ≤ i) :
    InBin (binstart + k * binlimit) binlimit i t ↔ InBin binstart binlimit (i - k) t := by
  have hstart : binstart + k * binlimit - i * binlimit = binstart - ((i - k : Nat) : Int) * binlimit := by
    push_cast [Nat.cast_sub hk]
    ring
  simp only [InBin, hstart]

/-- The windows that moving the start on by `k` brings in hold nothing from
before the old window 0 ended. -/
theorem not_inBin_of_lt {binstart binlimit t : Int} {k i : Nat} (hi : i < k) (hbl : 0 < binlimit)
    (ht : t < binstart + binlimit) : ¬ InBin (binstart + k * binlimit) binlimit i t := by
  rintro ⟨hlo, -⟩
  have hki : (1 : Int) ≤ (k : Int) - i := by omega
  have hstep : binlimit ≤ ((k : Int) - i) * binlimit := le_mul_of_one_le_left hbl.le hki
  have hstart : binstart + k * binlimit - i * binlimit = binstart + ((k : Int) - i) * binlimit := by ring
  linarith

/-- A time from the start of window 0 on is in no earlier window. -/
theorem not_inBin_of_le {binstart binlimit t : Int} {i : Nat} (hi : 1 ≤ i) (hbl : 0 ≤ binlimit)
    (ht : binstart ≤ t) : ¬ InBin binstart binlimit i t := by
  rintro ⟨-, hhi⟩
  have hi' : (1 : Int) ≤ i := by exact_mod_cast hi
  have hstep : binlimit ≤ (i : Int) * binlimit := le_mul_of_one_le_left hbl hi'
  linarith

theorem inBin_zero {binstart binlimit t : Int} :
    InBin binstart binlimit 0 t ↔ binstart ≤ t ∧ t < binstart + binlimit := by
  simp [InBin]

@[simp] theorem binMax_nil (binstart binlimit : Int) (i : Nat) : binMax [] binstart binlimit i = 0 := rfl

theorem binMax_append_of_inBin {samples : List (Int × Int)} {binstart binlimit : Int} {i : Nat}
    {s : Int × Int} (hs : InBin binstart binlimit i s.1) (hv : 0 ≤ s.2) :
    binMax (samples ++ [s]) binstart binlimit i = max (binMax samples binstart binlimit i) s.2 := by
  simp only [binMax, List.filter_append, List.map_append, maxOf_append, List.filter_cons, decide_eq_true hs,
    if_true, List.filter_nil, List.map_cons, List.map_nil, maxOf_cons, maxOf_nil, max_eq_left hv]

theorem binMax_append_of_not_inBin {samples : List (Int × Int)} {binstart binlimit : Int} {i : Nat}
    {s : Int × Int} (hs : ¬ InBin binstart binlimit i s.1) :
    binMax (samples ++ [s]) binstart binlimit i = binMax samples binstart binlimit i := by
  simp only [binMax, List.filter_append, List.map_append, maxOf_append, List.filter_cons, decide_eq_false hs,
    List.filter_nil]
  exact max_eq_left (maxOf_nonneg _)

theorem binMax_eq_zero {samples : List (Int × Int)} {binstart binlimit : Int} {i : Nat}
    (h : ∀ s ∈ samples, ¬ InBin binstart binlimit i s.1) : binMax samples binstart binlimit i = 0 := by
  have hnil : (samples.filter fun s => decide (InBin binstart binlimit i s.1)) = [] :=
    List.filter_eq_nil_iff.2 fun s hs => by simpa using h s hs
  simp only [binMax, hnil, List.map_nil, maxOf_nil]

theorem binMax_congr {samples : List (Int × Int)} {binstart binstart' binlimit : Int} {i j : Nat}
    (h : ∀ s ∈ samples, InBin binstart binlimit i s.1 ↔ InBin binstart' binlimit j s.1) :
    binMax samples binstart binlimit i = binMax samples binstart' binlimit j := by
  have hf : (samples.filter fun s => decide (InBin binstart binlimit i s.1)) =
      samples.filter fun s => decide (InBin binstart' binlimit j s.1) :=
    List.filter_congr fun s hs => by simp only [h s hs]
  simp only [binMax, hf]

theorem binMax_lt {samples : List (Int × Int)} (h : ∀ s ∈ samples, s.2 < 2 ^ 31) (binstart binlimit : Int)
    (i : Nat) : binMax samples binstart binlimit i < 2 ^ 31 := by
  have hle : binMax samples binstart binlimit i ≤ 2 ^ 31 - 1 := by
    refine maxOf_le (by norm_num) fun x hx => ?_
    obtain ⟨s, hs, rfl⟩ := List.mem_map.1 hx
    have := h s (List.mem_filter.1 hs).1
    omega
  omega

theorem le_histMax (hist : List Nat) {i : Nat} (hi : i < atBins) : (hist.getD i 0 : Int) ≤ histMax hist :=
  le_maxOf (List.mem_map.2 ⟨i, List.mem_range.2 hi, rfl⟩)

theorem histMax_le {hist : List Nat} {a : Int} (h0 : 0 ≤ a) (h : ∀ i < atBins, (hist.getD i 0 : Int) ≤ a) :
    histMax hist ≤ a := by
  refine maxOf_le h0 fun x hx => ?_
  obtain ⟨i, hi, rfl⟩ := List.mem_map.1 hx
  exact h i (List.mem_range.1 hi)

/-- The bounds taken after a maximum with a value already bounded are the
bounds taken after the plain maximum: what the bin-0 branch, which raises
the bounded current timeout, relies on. -/
theorem atClamp_max_atClamp (tun : AtTunables) (v x : Int) :
    atClamp tun (max v (atClamp tun x)) = atClamp tun (max v x) := by
  unfold atClamp
  split_ifs <;> omega

/-- Setting bin 0 to a value no lower than it makes the worst bin the worse
of that value and the old worst bin. -/
theorem histMax_set_zero {hist : List Nat} (hlen : 0 < hist.length) {x : Nat} (hx : hist.getD 0 0 ≤ x) :
    histMax (hist.set 0 x) = max (x : Int) (histMax hist) := by
  have hget : ∀ i, (hist.set 0 x).getD i 0 = if i = 0 then x else hist.getD i 0 :=
    ByteCodec.getD_set_of_lt hlen x 0
  have h0 : (0 : Nat) < atBins := by decide
  apply le_antisymm
  · refine histMax_le (le_max_of_le_left (Int.natCast_nonneg x)) fun i hi => ?_
    rw [hget]
    split_ifs
    · exact le_max_left _ _
    · exact le_max_of_le_right (le_histMax hist hi)
  · refine max_le ?_ (histMax_le (maxOf_nonneg _) fun i hi => ?_)
    · have := le_histMax (hist.set 0 x) h0
      rwa [hget, if_pos rfl] at this
    · have := le_histMax (hist.set 0 x) hi
      rw [hget] at this
      split_ifs at this with hi0
      · subst hi0
        exact le_trans (by exact_mod_cast hx) this
      · exact this

/-! ## Moving the bins over -/

/-- What bin `i` holds once the bins of `hist` have moved over by `k`. -/
def shiftedBin (hist : List Nat) (k i : Nat) : Nat :=
  if k ≤ i then hist.getD (i - k) 0 else 0

/-- One turn of the loop: bin `n` takes what moves into it, read from the
bins as the loop has left them. -/
theorem atShiftBins_succ (k n : Nat) (h : List Nat) (mv : Int) :
    atShiftBins k (n + 1) (h, mv) =
      atShiftBins k n (h.set n (shiftedBin h k n),
        if k ≤ n then max mv (CArith.narrowInt (h.getD (n - k) 0)) else mv) := by
  have hidx : ((n : Int) - (k : Int)).toNat = n - k := by omega
  by_cases hk : k ≤ n
  · have hk' : (k : Int) ≤ n := by exact_mod_cast hk
    simp only [atShiftBins, if_pos hk', hidx, shiftedBin, if_pos hk]
  · have hk' : ¬ (k : Int) ≤ n := by exact_mod_cast hk
    simp only [atShiftBins, if_neg hk', shiftedBin, if_neg hk]

theorem atShiftBins_length (k : Nat) :
    ∀ (n : Nat) (h : List Nat) (mv : Int), (atShiftBins k n (h, mv)).1.length = h.length
  | 0, _, _ => rfl
  | n + 1, h, mv => by rw [atShiftBins_succ, atShiftBins_length k n, List.length_set]

/-- The loop writes bins `n - 1` down to 0, each from a bin below it that it
has not written yet: after it, the bins below `n` are the moved ones and the
others are as they were. -/
theorem atShiftBins_fst (k : Nat) (hist : List Nat) :
    ∀ (n : Nat) (h : List Nat) (mv : Int), n ≤ h.length → (∀ i < n, h.getD i 0 = hist.getD i 0) →
      ∀ j, (atShiftBins k n (h, mv)).1.getD j 0 = if j < n then shiftedBin hist k j else h.getD j 0
  | 0, h, mv, _, _, j => by simp [atShiftBins]
  | n + 1, h, mv, hn, hh, j => by
    have hn' : n < h.length := by omega
    -- the bin read for bin `n` is below it, so the loop has not written it yet
    have hread : shiftedBin h k n = shiftedBin hist k n := by
      unfold shiftedBin
      split_ifs
      · exact hh _ (by omega)
      · rfl
    have hframe : ∀ i < n, (h.set n (shiftedBin h k n)).getD i 0 = hist.getD i 0 := fun i hi => by
      rw [ByteCodec.getD_set_of_lt hn', if_neg (by omega), hh i (by omega)]
    rw [atShiftBins_succ, atShiftBins_fst k hist n _ _ (by simpa using hn'.le) hframe j,
      ByteCodec.getD_set_of_lt hn', hread]
    by_cases hj : j < n
    · simp only [hj, if_true, show j < n + 1 by omega]
    · by_cases hjn : j = n
      · simp only [hjn, lt_irrefl, if_false, if_true, Nat.lt_succ_self]
      · simp only [hj, hjn, if_false, show ¬ j < n + 1 by omega]

/-- The worst the loop finds: at least where it started and every bin it
moved, and one of those. -/
theorem atShiftBins_snd (k : Nat) (hist : List Nat) :
    ∀ (n : Nat) (h : List Nat) (mv : Int), n ≤ h.length → (∀ i < n, h.getD i 0 = hist.getD i 0) →
      mv ≤ (atShiftBins k n (h, mv)).2 ∧
      (∀ i < n, k ≤ i → CArith.narrowInt (hist.getD (i - k) 0) ≤ (atShiftBins k n (h, mv)).2) ∧
      ((atShiftBins k n (h, mv)).2 = mv ∨
        ∃ i < n, k ≤ i ∧ (atShiftBins k n (h, mv)).2 = CArith.narrowInt (hist.getD (i - k) 0))
  | 0, h, mv, _, _ => ⟨le_rfl, fun _ hi => absurd hi (Nat.not_lt_zero _), Or.inl rfl⟩
  | n + 1, h, mv, hn, hh => by
    have hn' : n < h.length := by omega
    have hframe : ∀ i < n, (h.set n (shiftedBin h k n)).getD i 0 = hist.getD i 0 := fun i hi => by
      rw [ByteCodec.getD_set_of_lt hn', if_neg (by omega), hh i (by omega)]
    rw [atShiftBins_succ]
    by_cases hk : k ≤ n
    · -- bin `n` moves: the loop goes on from the worse of `mv` and it
      rw [if_pos hk, hh (n - k) (by omega)]
      set x := CArith.narrowInt (hist.getD (n - k) 0)
      obtain ⟨hle, hbound, hatt⟩ :=
        atShiftBins_snd k hist n _ (max mv x) (by simpa using hn'.le) hframe
      refine ⟨le_trans (le_max_left _ _) hle, fun i hi hki => ?_, ?_⟩
      · rcases Nat.lt_succ_iff_lt_or_eq.1 hi with hi | rfl
        · exact hbound i hi hki
        · exact le_trans (le_max_right _ _) hle
      · rcases hatt with hm | ⟨i, hi, hki, hm⟩
        · rcases max_choice mv x with hx | hx
          · exact Or.inl (hm.trans hx)
          · exact Or.inr ⟨n, Nat.lt_succ_self n, hk, hm.trans hx⟩
        · exact Or.inr ⟨i, Nat.lt_succ_of_lt hi, hki, hm⟩
    · -- bin `n` is cleared and `mv` stays
      rw [if_neg hk]
      obtain ⟨hle, hbound, hatt⟩ := atShiftBins_snd k hist n _ mv (by simpa using hn'.le) hframe
      refine ⟨hle, fun i hi hki => ?_, ?_⟩
      · rcases Nat.lt_succ_iff_lt_or_eq.1 hi with hi | rfl
        · exact hbound i hi hki
        · exact absurd hki hk
      · rcases hatt with hm | ⟨i, hi, hki, hm⟩
        · exact Or.inl hm
        · exact Or.inr ⟨i, Nat.lt_succ_of_lt hi, hki, hm⟩

/-- The number of whole windows in a distance `d` from `at_binstart`, as the
code computes it through `u32` and `int`, for `d` below `2^31`: the
quotient, which leaves `d` in the window it starts. -/
theorem shift_spec {d bl : Int} (hd0 : 0 ≤ d) (hd : d < 2 ^ 31) (hbl : 0 < bl) :
    CArith.narrowInt ((d % 2 ^ 32).toNat / bl.toNat) = ((d.toNat / bl.toNat : Nat) : Int) ∧
      ((d.toNat / bl.toNat : Nat) : Int) * bl ≤ d ∧ d < ((d.toNat / bl.toNat : Nat) : Int) * bl + bl := by
  obtain ⟨dn, rfl⟩ := Int.eq_ofNat_of_zero_le hd0
  obtain ⟨bn, rfl⟩ := Int.eq_ofNat_of_zero_le hbl.le
  have hbn : 0 < bn := by exact_mod_cast hbl
  have hmod : ((dn : Int) % 2 ^ 32).toNat = dn := by
    rw [Int.emod_eq_of_lt hd0 (by omega), Int.toNat_natCast]
  rw [hmod, Int.toNat_natCast, Int.toNat_natCast]
  refine ⟨CArith.narrowInt_of_lt (by have := Nat.div_le_self dn bn; omega), ?_, ?_⟩
  · exact_mod_cast Nat.div_mul_le_self dn bn
  · exact_mod_cast Nat.lt_div_mul_add hbn

theorem atBinlimit_pos (tun : AtTunables) : 0 < atBinlimit tun :=
  lt_of_lt_of_le one_pos (le_max_right _ _)

theorem atBinlimit_le {tun : AtTunables} (h : tun.atHistory < 2 ^ 32) : atBinlimit tun ≤ 2 ^ 30 := by
  have : tun.atHistory / atBins < 2 ^ 30 := by unfold atBins; omega
  unfold atBinlimit
  omega

theorem toUint_eq {x : Int} (h0 : 0 ≤ x) (h : x < 2 ^ 32) : (toUint x : Int) = x := by
  rw [toUint, Int.emod_eq_of_lt h0 h, Int.toNat_of_nonneg h0]

/-! ## What a run keeps -/

/-- Tunables read as set when compared as `timeout_t`: `at_min` and `at_max`
below `2^31`. `at_history` is an `unsigned int`. -/
def AtTunables.InRange (tun : AtTunables) : Prop :=
  tun.atMin < 2 ^ 31 ∧ tun.atMax < 2 ^ 31 ∧ tun.atHistory < 2 ^ 32

instance (tun : AtTunables) : Decidable tun.InRange := inferInstanceAs (Decidable (_ ∧ _ ∧ _))

/-- A sample the result is about, after the samples of `st`: a positive
`timeout_t`, at a time `now ≥ 1` no earlier than the sample before and less
than `2^30` seconds after it. -/
def AtAllowed (st : List (Int × Int) × AdaptiveTimeout) (smp : Int × Int) : Prop :=
  0 < smp.2 ∧ smp.2 < 2 ^ 31 ∧ 1 ≤ smp.1 ∧ ∀ s ∈ st.1.getLast?, s.1 ≤ smp.1 ∧ smp.1 - s.1 < 2 ^ 30

instance (st : List (Int × Int) × AdaptiveTimeout) (smp : Int × Int) : Decidable (AtAllowed st smp) :=
  inferInstanceAs (Decidable (_ ∧ _ ∧ _ ∧ _))

/-- The bins and their start, over the samples `(time, value)` seen so far:
each bin holds the worst sample of its window, no sample is past window 0,
and the last one is in it. -/
structure BinsInv (tun : AtTunables) (samples : List (Int × Int)) (adt : AdaptiveTimeout) : Prop where
  len : adt.atHist.length = atBins
  bins : ∀ i < atBins, (adt.atHist.getD i 0 : Int) = binMax samples adt.atBinstart (atBinlimit tun) i
  below : ∀ s ∈ samples, s.1 < adt.atBinstart + atBinlimit tun
  latest : ∀ s ∈ samples.getLast?, adt.atBinstart ≤ s.1
  fresh : samples = [] → adt.atBinstart = 0
  started : samples ≠ [] → 1 ≤ adt.atBinstart
  values : ∀ s ∈ samples, 0 < s.2 ∧ s.2 < 2 ^ 31
  nohist : adt.atFlags &&& atFlgNohist = 0

/-- `BinsInv` after each call: the current timeout is the bounded worst bin,
and the worst timeout ever is at least every sample. -/
structure AtInv (tun : AtTunables) (samples : List (Int × Int)) (adt : AdaptiveTimeout) : Prop
    extends BinsInv tun samples adt where
  current : samples ≠ [] → adt.atCurrentTimeout = atClamp tun (histMax adt.atHist)
  worst : ∀ s ∈ samples, s.2 ≤ adt.atWorstTimeoutEver

/-- `BinsInv` between a branch that records a sample and the bounds: the
bounds take the current timeout where they take the worst bin, and every
sample is at most the worse of the worst timeout ever and the current one. -/
structure Recorded (tun : AtTunables) (samples : List (Int × Int)) (adt : AdaptiveTimeout) : Prop
    extends BinsInv tun samples adt where
  current : atClamp tun adt.atCurrentTimeout = atClamp tun (histMax adt.atHist)
  worst : ∀ s ∈ samples, s.2 ≤ max adt.atWorstTimeoutEver adt.atCurrentTimeout

section Branches

variable {tun : AtTunables} {samples : List (Int × Int)} {adt : AdaptiveTimeout} {now v : Int}

theorem BinsInv.getD_lt (hI : BinsInv tun samples adt) (i : Nat) : adt.atHist.getD i 0 < 2 ^ 31 := by
  by_cases hi : i < atBins
  · have h := hI.bins i hi
    have hlt := binMax_lt (fun s hs => (hI.values s hs).2) adt.atBinstart (atBinlimit tun) i
    omega
  · rw [List.getD_eq_default _ _ (by rw [hI.len]; omega)]
    norm_num

theorem BinsInv.narrowInt_getD (hI : BinsInv tun samples adt) (i : Nat) :
    CArith.narrowInt (adt.atHist.getD i 0) = adt.atHist.getD i 0 :=
  CArith.narrowInt_of_lt (hI.getD_lt i)

/-- Once a sample has been seen, a new one is in window 0 or after it, by
less than `2^31` seconds. -/
theorem BinsInv.gap (htun : tun.InRange) (hI : BinsInv tun samples adt) (hok : AtAllowed (samples, adt) (now, v))
    (hne : samples ≠ []) : adt.atBinstart ≤ now ∧ now - adt.atBinstart < 2 ^ 31 := by
  obtain ⟨s, hs⟩ := Option.isSome_iff_exists.1 (List.getLast?_isSome.2 hne)
  have hlat := hI.latest s hs
  have hbel := hI.below s (List.mem_of_getLast? hs)
  have hstep := hok.2.2.2 s hs
  have hbl := atBinlimit_le htun.2.2
  dsimp only at hstep
  omega

/-- The parts of `BinsInv` that do not read the bins, after a branch that
puts the new sample in window 0 of a start no earlier than the old one. -/
theorem BinsInv.record (hI : BinsInv tun samples adt) (hok : AtAllowed (samples, adt) (now, v))
    {adt' : AdaptiveTimeout} (hlen : adt'.atHist.length = atBins)
    (hbins : ∀ i < atBins, (adt'.atHist.getD i 0 : Int) =
      binMax (samples ++ [(now, v)]) adt'.atBinstart (atBinlimit tun) i)
    (hmono : samples = [] ∨ adt.atBinstart ≤ adt'.atBinstart) (hstart : 1 ≤ adt'.atBinstart)
    (hnow : adt'.atBinstart ≤ now ∧ now < adt'.atBinstart + atBinlimit tun)
    (hflags : adt'.atFlags = adt.atFlags) : BinsInv tun (samples ++ [(now, v)]) adt' where
  len := hlen
  bins := hbins
  below := by
    intro s hs
    rcases List.mem_append.1 hs with hs | hs
    · rcases hmono with rfl | hmono
      · exact absurd hs List.not_mem_nil
      · have := hI.below s hs
        omega
    · rw [List.mem_singleton.1 hs]
      exact hnow.2
  latest := by
    intro s hs
    rw [List.getLast?_concat, Option.mem_some_iff] at hs
    rw [← hs]
    exact hnow.1
  fresh := fun h => absurd h (List.append_ne_nil_of_right_ne_nil _ (List.cons_ne_nil _ _))
  started := fun _ => hstart
  values := by
    intro s hs
    rcases List.mem_append.1 hs with hs | hs
    · exact hI.values s hs
    · rw [List.mem_singleton.1 hs]
      exact ⟨hok.1, hok.2.1⟩
  nohist := hflags ▸ hI.nohist

/-- The first sample removes the default from the history: the bins are
empty, bin 0 takes the sample and window 0 starts at it. -/
theorem atRecord_first (hI : AtInv tun samples adt) (hok : AtAllowed (samples, adt) (now, v))
    (h0 : adt.atBinstart = 0) :
    ∃ adt', atRecord tun now adt v = some adt' ∧ Recorded tun (samples ++ [(now, v)]) adt' := by
  have hnil : samples = [] := by
    by_contra hne
    have := hI.started hne
    omega
  subst hnil
  have hlen : 0 < adt.atHist.length := by rw [hI.len]; decide
  have hempty : ∀ i < atBins, adt.atHist.getD i 0 = 0 := fun i hi => by
    have := hI.bins i hi
    rw [binMax_nil] at this
    omega
  have hv : (toUint v : Int) = v := toUint_eq hok.1.le (by have := hok.2.1; omega)
  have hwin : InBin now (atBinlimit tun) 0 now := inBin_zero.2 ⟨le_rfl, by linarith [atBinlimit_pos tun]⟩
  simp only [atRecord, if_pos h0]
  refine ⟨_, rfl, ⟨hI.record hok (by rw [List.length_set, hI.len]) ?_ (Or.inl rfl) hok.2.2.1
    ⟨le_rfl, by linarith [atBinlimit_pos tun]⟩ rfl, ?_, ?_⟩⟩
  · intro i hi
    dsimp only
    rw [ByteCodec.getD_set_of_lt hlen]
    split_ifs with hi0
    · rw [hi0, binMax_append_of_inBin hwin hok.1.le, binMax_nil, hv, max_eq_right hok.1.le]
    · rw [binMax_append_of_not_inBin (not_inBin_of_le (by omega) (atBinlimit_pos tun).le le_rfl),
        hempty i hi, binMax_nil]
      rfl
  · -- the worst bin is the sample itself
    have hmax : histMax adt.atHist = 0 :=
      le_antisymm (histMax_le le_rfl fun i hi => by rw [hempty i hi]; rfl) (maxOf_nonneg _)
    dsimp only
    rw [histMax_set_zero hlen (by rw [hempty 0 (by decide)]; exact Nat.zero_le _), hmax, hv,
      max_eq_left hok.1.le]
  · intro s hs
    rw [List.nil_append, List.mem_singleton] at hs
    rw [hs]
    exact le_max_left _ _

/-- A sample within window 0 raises bin 0 and the current timeout. -/
theorem atRecord_bin0 (htun : tun.InRange) (hI : AtInv tun samples adt) (hok : AtAllowed (samples, adt) (now, v))
    (h0 : adt.atBinstart ≠ 0) (hlt : now - adt.atBinstart < atBinlimit tun) :
    ∃ adt', atRecord tun now adt v = some adt' ∧ Recorded tun (samples ++ [(now, v)]) adt' := by
  have hne : samples ≠ [] := fun h => h0 (hI.fresh h)
  have hgap := hI.gap htun hok hne
  have hlen : 0 < adt.atHist.length := by rw [hI.len]; decide
  have h00 : (0 : Nat) < atBins := by decide
  -- the new bin 0, as the `timeout_t` maximum stored back
  have hb0 := hI.getD_lt 0
  have hv : (toUint (max v (CArith.narrowInt (adt.atHist.getD 0 0))) : Int) = max v (adt.atHist.getD 0 0) := by
    rw [hI.narrowInt_getD]
    exact toUint_eq (le_max_of_le_left hok.1.le) (max_lt (by have := hok.2.1; omega) (by omega))
  have hwin : InBin adt.atBinstart (atBinlimit tun) 0 now := inBin_zero.2 ⟨hgap.1, by omega⟩
  simp only [atRecord, if_neg h0, if_pos hlt]
  refine ⟨_, rfl, ⟨hI.record hok (by rw [List.length_set, hI.len]) ?_ (Or.inr le_rfl) (hI.started hne)
    ⟨hgap.1, by dsimp only; omega⟩ rfl, ?_, ?_⟩⟩
  · intro i hi
    dsimp only
    rw [ByteCodec.getD_set_of_lt hlen]
    split_ifs with hi0
    · rw [hv, hi0, binMax_append_of_inBin hwin hok.1.le, ← hI.bins 0 h00, max_comm]
    · rw [binMax_append_of_not_inBin (not_inBin_of_le (by omega) (atBinlimit_pos tun).le hgap.1), hI.bins i hi]
  · -- the bounds of the raised current timeout are those of the raised worst bin
    have hx : adt.atHist.getD 0 0 ≤ toUint (max v (CArith.narrowInt (adt.atHist.getD 0 0))) := by
      have : (adt.atHist.getD 0 0 : Int) ≤ toUint (max v (CArith.narrowInt (adt.atHist.getD 0 0))) := by
        rw [hv]
        exact le_max_right _ _
      exact_mod_cast this
    dsimp only
    rw [histMax_set_zero hlen hx, hv, hI.current hne, atClamp_max_atClamp, max_assoc,
      max_eq_right (le_histMax _ h00)]
  · intro s hs
    dsimp only
    rcases List.mem_append.1 hs with hs | hs
    · exact le_max_of_le_left (hI.worst s hs)
    · rw [List.mem_singleton.1 hs]
      exact le_max_of_le_right (le_max_left _ _)

/-- A sample past window 0 moves the bins over by the number of whole
windows since its start, and starts window 0 afresh with the sample. -/
theorem atRecord_shift (htun : tun.InRange) (hI : AtInv tun samples adt) (hok : AtAllowed (samples, adt) (now, v))
    (h0 : adt.atBinstart ≠ 0) (hge : ¬ now - adt.atBinstart < atBinlimit tun) :
    ∃ adt', atRecord tun now adt v = some adt' ∧ Recorded tun (samples ++ [(now, v)]) adt' := by
  have hne : samples ≠ [] := fun h => h0 (hI.fresh h)
  have hgap := hI.gap htun hok hne
  have hbl := atBinlimit_pos tun
  obtain ⟨hshift, hlo, hhi⟩ := shift_spec (d := now - adt.atBinstart) (by omega) hgap.2 hbl
  set k := (now - adt.atBinstart).toNat / (atBinlimit tun).toNat
  have hk1 : 1 ≤ k := by
    rcases Nat.eq_zero_or_pos k with hk | hk
    · rw [hk, Nat.cast_zero, zero_mul, zero_add] at hhi
      omega
    · exact hk
  have hpos : ¬ ((k : Int) ≤ 0) := by omega
  have hm0 : 0 ≤ (k : Int) * atBinlimit tun := mul_nonneg (Int.natCast_nonneg k) hbl.le
  -- the loop, run over the whole history from the sample itself
  have hlen4 : atBins ≤ adt.atHist.length := by rw [hI.len]
  have hfst := atShiftBins_fst k adt.atHist atBins adt.atHist v hlen4 (fun _ _ => rfl)
  obtain ⟨hmv, hbound, hatt⟩ := atShiftBins_snd k adt.atHist atBins adt.atHist v hlen4 (fun _ _ => rfl)
  have hrlen : (atShiftBins k atBins (adt.atHist, v)).1.length = atBins := by
    rw [atShiftBins_length, hI.len]
  have hlen : 0 < (atShiftBins k atBins (adt.atHist, v)).1.length := by rw [hrlen]; decide
  have hmoved : ∀ i < atBins, (atShiftBins k atBins (adt.atHist, v)).1.getD i 0 = shiftedBin adt.atHist k i :=
    fun i hi => by rw [hfst i, if_pos hi]
  have hr0 : (atShiftBins k atBins (adt.atHist, v)).1.getD 0 0 = 0 := by
    rw [hmoved 0 (by decide), shiftedBin, if_neg (by omega)]
  have hv : (toUint v : Int) = v := toUint_eq hok.1.le (by have := hok.2.1; omega)
  have hwin : adt.atBinstart + k * atBinlimit tun ≤ now ∧ now < adt.atBinstart + k * atBinlimit tun + atBinlimit tun := by
    constructor <;> linarith
  simp only [atRecord, if_neg h0, if_neg hge, hshift, if_neg hpos]
  refine ⟨_, rfl, ⟨hI.record hok (by rw [List.length_set, hrlen]) ?_ (Or.inr (by dsimp only; omega))
    (by have := hI.started hne; dsimp only; omega) hwin rfl, ?_, ?_⟩⟩
  · intro i hi
    dsimp only
    rw [ByteCodec.getD_set_of_lt hlen]
    split_ifs with hi0
    · -- window 0 of the new start holds only the new sample
      rw [hi0, binMax_append_of_inBin (inBin_zero.2 hwin) hok.1.le,
        binMax_eq_zero fun s hs => not_inBin_of_lt hk1 hbl (hI.below s hs), hv, max_eq_right hok.1.le]
    · rw [binMax_append_of_not_inBin (not_inBin_of_le (by omega) hbl.le hwin.1), hmoved i hi, shiftedBin]
      split_ifs with hki
      · -- a bin that moved: window `i - k` of the old start
        rw [hI.bins (i - k) (by omega)]
        exact (binMax_congr fun s _ => inBin_shift hki).symm
      · -- a bin the move brought in: no sample is that recent
        rw [binMax_eq_zero fun s hs => not_inBin_of_lt (by omega) hbl (hI.below s hs)]
        rfl
  · -- the worst the loop found is the worst bin after it
    dsimp only
    congr 1
    rw [histMax_set_zero hlen (by rw [hr0]; exact Nat.zero_le _), hv]
    apply le_antisymm
    · rcases hatt with hm | ⟨i, hi, hki, hm⟩
      · rw [hm]
        exact le_max_left _ _
      · have hle := le_histMax (atShiftBins k atBins (adt.atHist, v)).1 hi
        rw [hmoved i hi, shiftedBin, if_pos hki] at hle
        rw [hm, hI.narrowInt_getD]
        exact le_max_of_le_right hle
    · refine max_le hmv (histMax_le (by omega) fun i hi => ?_)
      rw [hmoved i hi, shiftedBin]
      split_ifs with hki
      · have := hbound i hi hki
        rwa [hI.narrowInt_getD] at this
      · have : v ≤ (atShiftBins k atBins (adt.atHist, v)).2 := hmv
        push_cast
        omega
  · intro s hs
    dsimp only
    rcases List.mem_append.1 hs with hs | hs
    · exact le_max_of_le_left (hI.worst s hs)
    · rw [List.mem_singleton.1 hs]
      exact le_max_of_le_right hmv

/-- Every sample is recorded by one of the three branches. -/
theorem atRecord_spec (htun : tun.InRange) (hI : AtInv tun samples adt) (hok : AtAllowed (samples, adt) (now, v)) :
    ∃ adt', atRecord tun now adt v = some adt' ∧ Recorded tun (samples ++ [(now, v)]) adt' := by
  by_cases h0 : adt.atBinstart = 0
  · exact atRecord_first hI hok h0
  · by_cases hlt : now - adt.atBinstart < atBinlimit tun
    · exact atRecord_bin0 htun hI hok h0 hlt
    · exact atRecord_shift htun hI hok h0 hlt

/-- The end of `at_measured`: the worst timeout ever is raised to the
current one, and the current one is bounded, as set when the tunables are
in range and the history is kept. -/
theorem atBound_spec (htun : tun.InRange) (hf : adt.atFlags &&& atFlgNohist = 0) (now v : Int) :
    (atBound tun now adt v).atHist = adt.atHist ∧ (atBound tun now adt v).atBinstart = adt.atBinstart ∧
      (atBound tun now adt v).atFlags = adt.atFlags ∧
      (atBound tun now adt v).atWorstTimeoutEver = max adt.atWorstTimeoutEver adt.atCurrentTimeout ∧
      (atBound tun now adt v).atCurrentTimeout = atClamp tun adt.atCurrentTimeout := by
  have hmin := CArith.narrowInt_of_lt htun.1
  have hmax := CArith.narrowInt_of_lt htun.2.1
  by_cases hw : adt.atCurrentTimeout > adt.atWorstTimeoutEver
  · simp only [atBound, if_pos hw, hf, ne_eq, not_true_eq_false, if_false, hmin, hmax, atClamp, gt_iff_lt]
    exact ⟨trivial, trivial, trivial, (max_eq_right hw.le).symm, trivial⟩
  · simp only [atBound, if_neg hw, hf, ne_eq, not_true_eq_false, if_false, hmin, hmax, atClamp, gt_iff_lt]
    exact ⟨trivial, trivial, trivial, (max_eq_left (not_lt.1 hw)).symm, trivial⟩

/-- The bounds turn what a branch recorded into the invariant. -/
theorem Recorded.bound (htun : tun.InRange) (hR : Recorded tun samples adt) (now v : Int) :
    AtInv tun samples (atBound tun now adt v) := by
  obtain ⟨hhist, hstart, hflags, hworst, hcur⟩ := atBound_spec htun hR.nohist now v
  refine ⟨?_, fun _ => ?_, fun s hs => ?_⟩
  · refine ⟨?_, ?_, ?_, ?_, ?_, ?_, hR.values, ?_⟩
    all_goals simp only [hhist, hstart, hflags]
    exacts [hR.len, hR.bins, hR.below, hR.latest, hR.fresh, hR.started, hR.nohist]
  · rw [hcur, hhist, hR.current]
  · rw [hworst]
    exact hR.worst s hs

/-- One call of `at_measured` with an admitted sample returns the old
current timeout if it changed, and keeps the invariant. -/
theorem atMeasured_spec (htun : tun.InRange) (hI : AtInv tun samples adt) (hok : AtAllowed (samples, adt) (now, v)) :
    ∃ adt', atMeasured tun now adt v =
        some (if adt'.atCurrentTimeout ≠ adt.atCurrentTimeout then adt.atCurrentTimeout else 0, adt') ∧
      AtInv tun (samples ++ [(now, v)]) adt' := by
  obtain ⟨adt₁, hrec, hR⟩ := atRecord_spec htun hI hok
  refine ⟨atBound tun now adt₁ v, ?_, hR.bound htun now v⟩
  simp only [atMeasured, if_neg (not_le.2 hok.1), hrec, Option.map_some]

end Branches

/-! ## Runs of samples -/

/-- A structure from `at_init` with the history kept, before any sample. -/
def AtStart (st : List (Int × Int) × AdaptiveTimeout) : Prop :=
  st.1 = [] ∧ ∃ timeout flags now, flags &&& atFlgNohist = 0 ∧ st.2 = atInit timeout flags now

/-- `at_measured` on a sample `(now, timeout)`, with the samples so far kept
beside the structure. -/
def atStep (tun : AtTunables) (st : List (Int × Int) × AdaptiveTimeout) (smp : Int × Int) :
    Option (Int × (List (Int × Int) × AdaptiveTimeout)) :=
  (atMeasured tun smp.1 st.2 smp.2).map fun r => (r.1, (st.1 ++ [smp], r.2))

theorem AtInv.start {tun : AtTunables} {st : List (Int × Int) × AdaptiveTimeout} (hs : AtStart st) :
    AtInv tun st.1 st.2 := by
  obtain ⟨hnil, timeout, flags, now, hf, hst⟩ := hs
  rw [hnil, hst]
  refine ⟨⟨?_, fun i hi => ?_, fun _ h => absurd h List.not_mem_nil, fun _ h => absurd h (by simp),
    fun _ => rfl, fun h => absurd rfl h, fun _ h => absurd h List.not_mem_nil, hf⟩,
    fun h => absurd rfl h, fun _ h => absurd h List.not_mem_nil⟩
  · exact List.length_replicate
  · rw [binMax_nil]
    exact_mod_cast List.getD_replicate 0 hi

/-- Every structure a run of admitted samples reaches keeps the invariant. -/
theorem AtInv.of_reachable {tun : AtTunables} (htun : tun.InRange) {st : List (Int × Int) × AdaptiveTimeout}
    (hst : StepRun.Reachable (atStep tun) AtAllowed AtStart st) : AtInv tun st.1 st.2 := by
  refine StepRun.Reachable.inv _ _ (P := fun st => AtInv tun st.1 st.2) (fun _ hs => AtInv.start hs) ?_ hst
  rintro ⟨samples, adt⟩ ⟨now, v⟩ r st' hok hI hstep
  obtain ⟨adt', hm, hI'⟩ := atMeasured_spec htun hI hok
  simp only [atStep, hm, Option.map_some, Option.some.injEq, Prod.mk.injEq] at hstep
  rw [← hstep.2]
  exact hI'

/-- After every call in a run of admitted samples from `at_init`, with the
tunables in range: each bin holds the worst sample of its window, the
current timeout is the worst bin within `at_min` and `at_max`, the worst
timeout ever is at least every sample, and the call returns the old current
timeout if it changed, else 0. -/
theorem at_measured_window_max (tun : AtTunables) (htun : tun.InRange) {st : List (Int × Int) × AdaptiveTimeout}
    (hst : StepRun.Reachable (atStep tun) AtAllowed AtStart st) {now timeout : Int}
    (hok : AtAllowed st (now, timeout)) :
    ∃ r adt', atMeasured tun now st.2 timeout = some (r, adt') ∧
      (∀ i < atBins, (adt'.atHist.getD i 0 : Int) =
        binMax (st.1 ++ [(now, timeout)]) adt'.atBinstart (atBinlimit tun) i) ∧
      adt'.atCurrentTimeout = atClamp tun (histMax adt'.atHist) ∧
      (∀ s ∈ st.1 ++ [(now, timeout)], s.2 ≤ adt'.atWorstTimeoutEver) ∧
      r = if adt'.atCurrentTimeout ≠ st.2.atCurrentTimeout then st.2.atCurrentTimeout else 0 := by
  have hI := AtInv.of_reachable htun hst
  obtain ⟨adt', hm, hI'⟩ := atMeasured_spec htun hI hok
  exact ⟨_, adt', hm, hI'.bins, hI'.current (List.append_ne_nil_of_right_ne_nil _ (List.cons_ne_nil _ _)),
    hI'.worst, rfl⟩

theorem at_measured_first_sample :
    ∃ r adt', atMeasured ⟨5, 600, 600⟩ 1 (atInit 30 0 0) 10 = some (r, adt') ∧
      (∀ i < atBins, (adt'.atHist.getD i 0 : Int) =
        binMax ([] ++ [(1, 10)]) adt'.atBinstart (atBinlimit ⟨5, 600, 600⟩) i) ∧
      adt'.atCurrentTimeout = atClamp ⟨5, 600, 600⟩ (histMax adt'.atHist) ∧
      (∀ s ∈ ([] : List (Int × Int)) ++ [(1, 10)], s.2 ≤ adt'.atWorstTimeoutEver) ∧
      r = if adt'.atCurrentTimeout ≠ (atInit 30 0 0).atCurrentTimeout then (atInit 30 0 0).atCurrentTimeout else 0 :=
  @at_measured_window_max ⟨5, 600, 600⟩ (by decide) ([], atInit 30 0 0) (.start ⟨rfl, 30, 0, 0, rfl, rfl⟩) 1 10
    (by decide)

/-- An `at_max` of `2^31`, which the tunable takes, is read as a negative
`timeout_t`: the first sample, 10, leaves the current timeout at `at_min`,
0, where the bounds as set give 10. -/
theorem at_measured_max_wraps :
    atMeasured ⟨0, 2 ^ 31, 600⟩ 1 (atInit 30 0 0) 10 = some (30, ⟨1, [10, 0, 0, 0], 0, 0, 10, 1⟩) ∧
      atClamp ⟨0, 2 ^ 31, 600⟩ (histMax [10, 0, 0, 0]) = 10 := by
  decide

end Lustre.Ptlrpc
