import Mathlib
import Lustre.Lov.Offset
import Lustre.Lib.Raid0
import Lustre.Lib.CArith

/-! # The offset code is RAID0 striping

A component with a stripe size and a stripe count (`StripedEntry`) has a
RAID0 layout (`StripedEntry.layout`): the stripe count, or one stripe for
Data-on-MDT, and the stripe size. Each function of `lov_offset.c` computes,
on the `u64` values, a quantity of that layout, without a wrap:

* `lov_stripe_number` is the stripe of the offset (`lovStripeNumber_eq`);
* `lov_stripe_offset` and `lov_size_to_stripe` are the number of bytes of
  the stripe's object below the offset (`lovStripeOffset_eq`,
  `lovSizeToStripe_eq`), which for an offset on that stripe is where it lands;
* `lov_stripe_size` is one past the file offset of the object's last byte,
  modulo `2^64` (`lovStripeSize_eq`).

The claims then follow from `Raid0`: striping is a bijection, and the object
offsets of a file range are a range.
-/

namespace Lustre.Lov

open Raid0 CArith

/-- A component with a stripe size and a stripe count, as a layout the MDT
hands out has. -/
structure StripedEntry where
  entry : LovStripeMdEntry
  size_pos : 0 < entry.lsmeStripeSize.toNat
  count_pos : 0 < entry.lsmeStripeCount.toNat

namespace StripedEntry

/-- The RAID0 layout of the component: its stripes, or the one object of a
Data-on-MDT component, in stripes of its stripe size. -/
def layout (se : StripedEntry) : Layout where
  size := se.entry.lsmeStripeSize.toNat
  count := if se.entry.lsmeIsDom then 1 else se.entry.lsmeStripeCount.toNat
  size_pos := se.size_pos
  count_pos := by
    have := se.count_pos
    split <;> omega

variable (se : StripedEntry)

theorem layout_size : se.layout.size = se.entry.lsmeStripeSize.toNat := rfl

theorem toNat_ssize : se.entry.lsmeStripeSize.toUInt64.toNat = se.layout.size := UInt32.toNat_toUInt64 _

theorem layout_size_lt : se.layout.size < 2 ^ 32 := se.entry.lsmeStripeSize.toNat_lt

theorem layout_count_lt : se.layout.count < 2 ^ 16 := by
  have := se.entry.lsmeStripeCount.toNat_lt
  show (if se.entry.lsmeIsDom then 1 else se.entry.lsmeStripeCount.toNat) < 2 ^ 16
  split <;> omega

theorem toNat_stripeWidth : (stripeWidth se.entry).toNat = se.layout.width := by
  unfold stripeWidth Layout.width
  have hs := se.layout_size_lt
  have hc := se.layout_count_lt
  by_cases hd : se.entry.lsmeIsDom = true
  · simp only [hd, if_true, layout, Nat.mul_one, UInt32.toNat_toUInt64]
  · -- the width of a striped component is below `2^48`, so the product does not wrap
    have hlt : se.layout.size * se.layout.count < 2 ^ 64 := by
      calc se.layout.size * se.layout.count < 2 ^ 32 * 2 ^ 16 := Nat.mul_lt_mul'' hs hc
        _ < 2 ^ 64 := by decide
    simp only [hd, Bool.false_eq_true, if_false, UInt64.toNat_mul, UInt32.toNat_toUInt64, UInt16.toNat_toUInt64]
    simp only [layout, hd, Bool.false_eq_true, if_false] at hlt ⊢
    exact Nat.mod_eq_of_lt hlt

theorem toNat_stripeno {k : ℕ} (hk : k < se.layout.count) : k.toUInt64.toNat = k := by
  have := se.layout_count_lt
  simp only [Nat.toUInt64_eq, UInt64.toNat_ofNat']
  omega

/-- The start of stripe `k` in its row. -/
theorem toNat_thisStripe {k : ℕ} (hk : k < se.layout.count) :
    (k.toUInt64 * se.entry.lsmeStripeSize.toUInt64).toNat = k * se.layout.size := by
  have hlt : k * se.layout.size < 2 ^ 64 :=
    calc k * se.layout.size < 2 ^ 16 * 2 ^ 32 := Nat.mul_lt_mul'' (hk.trans se.layout_count_lt) se.layout_size_lt
      _ < 2 ^ 64 := by decide
  rw [UInt64.toNat_mul, se.toNat_stripeno hk, se.toNat_ssize, Nat.mod_eq_of_lt hlt]

/-- The place of an offset in its row. -/
theorem toNat_stripeOff (x : UInt64) : (x % stripeWidth se.entry).toNat = x.toNat % se.layout.width := by
  rw [UInt64.toNat_mod, se.toNat_stripeWidth]

/-- The row of an offset. -/
theorem toNat_row (x : UInt64) : (x / stripeWidth se.entry).toNat = x.toNat / se.layout.width := by
  rw [UInt64.toNat_div, se.toNat_stripeWidth]

/-- How far into its row an offset lies past the start of stripe `k`, for an
offset not before it: the subtraction does not wrap. -/
theorem toNat_stripeOff_sub {x : UInt64} {k : ℕ} (hk : k < se.layout.count)
    (h : ¬ x % stripeWidth se.entry < k.toUInt64 * se.entry.lsmeStripeSize.toUInt64) :
    (x % stripeWidth se.entry - k.toUInt64 * se.entry.lsmeStripeSize.toUInt64).toNat =
      x.toNat % se.layout.width - k * se.layout.size := by
  rw [UInt64.lt_iff_toNat_lt, se.toNat_stripeOff, se.toNat_thisStripe hk] at h
  rw [UInt64.toNat_sub_of_le _ _ (by rw [UInt64.le_iff_toNat_le, se.toNat_stripeOff, se.toNat_thisStripe hk]; omega),
    se.toNat_stripeOff, se.toNat_thisStripe hk]

/-- `lov_stripe_number` is the stripe of the offset. -/
theorem lovStripeNumber_eq (x : UInt64) : lovStripeNumber se.entry x = se.layout.stripe x.toNat := by
  rw [lovStripeNumber, Layout.stripe, UInt64.toNat_div, UInt64.toNat_mod, se.toNat_stripeWidth, se.toNat_ssize]

/-- An offset lies on stripe `k` exactly when it lies in the `k`-th stripe of
its row. -/
theorem stripe_eq_iff {k : ℕ} (y : ℕ) :
    se.layout.stripe y = k ↔ k * se.layout.size ≤ y % se.layout.width ∧ y % se.layout.width < k * se.layout.size + se.layout.size := by
  rw [Layout.stripe, Nat.div_eq_iff se.layout.size_pos]
  have := se.layout.size_pos
  omega

/-- `lov_stripe_offset` finds the number of bytes of the stripe's object
below the offset, and says `0` exactly when the offset is on the stripe. -/
theorem lovStripeOffset_eq {x : UInt64} (hx : x ≠ obdObjectEof) {k : ℕ} (hk : k < se.layout.count) :
    (lovStripeOffset se.entry x k).2.toNat = Nat.count (se.layout.stripe · = k) x.toNat ∧
      ((lovStripeOffset se.entry x k).1 = 0 ↔ se.layout.stripe x.toNat = k) := by
  have hbound : Nat.count (se.layout.stripe · = k) x.toNat < 2 ^ 64 :=
    lt_of_le_of_lt (Nat.count_le _) x.toNat_lt
  have hon := se.stripe_eq_iff (k := k) x.toNat
  rw [se.layout.count_stripe hk] at hbound ⊢
  have hr := se.toNat_stripeOff x
  have hq := se.toNat_row x
  have hts := se.toNat_thisStripe hk
  have hs := se.toNat_ssize
  unfold lovStripeOffset
  rw [if_neg hx]
  dsimp only
  split_ifs with h1 h2
  · -- before the stripe: its start in this row
    rw [UInt64.lt_iff_toNat_lt, hr, hts] at h1
    rw [toNat_mul_add_of_lt (by rw [hq, hs, UInt64.toNat_zero]; omega), hq, hs, UInt64.toNat_zero]
    exact ⟨by omega, by simp; omega⟩
  · -- past the stripe: its end in this row
    have hsub := se.toNat_stripeOff_sub hk h1
    rw [UInt64.lt_iff_toNat_lt, hr, hts] at h1
    rw [ge_iff_le, UInt64.le_iff_toNat_le, hsub, hs] at h2
    rw [toNat_mul_add_of_lt (by rw [hq, hs]; omega), hq, hs]
    exact ⟨by omega, by simp; omega⟩
  · -- on the stripe: the place in it
    have hsub := se.toNat_stripeOff_sub hk h1
    rw [UInt64.lt_iff_toNat_lt, hr, hts] at h1
    rw [ge_iff_le, UInt64.le_iff_toNat_le, hsub, hs] at h2
    rw [toNat_mul_add_of_lt (by rw [hq, hs, hsub]; omega), hq, hs, hsub]
    exact ⟨by omega, by simp; omega⟩

/-- `lov_size_to_stripe` finds the number of bytes of the stripe's object
below the file size: the object's size. -/
theorem lovSizeToStripe_eq {F : UInt64} (hF : F ≠ obdObjectEof) {k : ℕ} (hk : k < se.layout.count) :
    (lovSizeToStripe se.entry F k).toNat = Nat.count (se.layout.stripe · = k) F.toNat := by
  have hbound : Nat.count (se.layout.stripe · = k) F.toNat < 2 ^ 64 :=
    lt_of_le_of_lt (Nat.count_le _) F.toNat_lt
  rw [se.layout.count_stripe hk] at hbound ⊢
  have hr := se.toNat_stripeOff F
  have hq := se.toNat_row F
  have hts := se.toNat_thisStripe hk
  have hs := se.toNat_ssize
  unfold lovSizeToStripe
  rw [if_neg hF]
  dsimp only
  split_ifs with h1 h0 h2
  · -- before the stripe, after the first row: the end of the stripe in the row before
    rw [UInt64.lt_iff_toNat_lt, hr, hts] at h1
    rw [gt_iff_lt, UInt64.lt_iff_toNat_lt, hq, UInt64.toNat_zero] at h0
    have hq1 : (F / stripeWidth se.entry - 1).toNat = F.toNat / se.layout.width - 1 := by
      rw [UInt64.toNat_sub_of_le _ _ (by rw [UInt64.le_iff_toNat_le, hq, UInt64.toNat_one]; omega), hq,
        UInt64.toNat_one]
    have hrow : (F.toNat / se.layout.width - 1) * se.layout.size + se.layout.size =
        F.toNat / se.layout.width * se.layout.size := by
      rw [← Nat.succ_mul, Nat.succ_eq_add_one, Nat.sub_add_cancel h0]
    rw [toNat_mul_add_of_lt (by rw [hq1, hs]; omega), hq1, hs]
    omega
  · -- before the stripe in the first row: nothing of it
    rw [UInt64.lt_iff_toNat_lt, hr, hts] at h1
    rw [gt_iff_lt, UInt64.lt_iff_toNat_lt, hq, UInt64.toNat_zero] at h0
    rw [toNat_mul_add_of_lt (by rw [hq, hs, UInt64.toNat_zero]; omega), hq, hs, UInt64.toNat_zero]
    omega
  · -- past the stripe: all of it in this row
    have hsub := se.toNat_stripeOff_sub hk h1
    rw [UInt64.lt_iff_toNat_lt, hr, hts] at h1
    rw [ge_iff_le, UInt64.le_iff_toNat_le, hsub, hs] at h2
    rw [toNat_mul_add_of_lt (by rw [hq, hs]; omega), hq, hs]
    omega
  · -- on the stripe: the part of it below the size
    have hsub := se.toNat_stripeOff_sub hk h1
    rw [UInt64.lt_iff_toNat_lt, hr, hts] at h1
    rw [ge_iff_le, UInt64.le_iff_toNat_le, hsub, hs] at h2
    rw [toNat_mul_add_of_lt (by rw [hq, hs, hsub]; omega), hq, hs, hsub]
    omega

/-- A 64-bit value whose number is `n` is the value of `n`. -/
theorem eq_ofNat_of_toNat {u : UInt64} {n : ℕ} (h : u.toNat = n) : u = UInt64.ofNat n := by
  rw [← h, UInt64.ofNat_toNat]

/-- `lov_stripe_size` is one past the file offset of the object's last
byte, taken modulo `2^64` as the code computes it. -/
theorem lovStripeSize_eq {S : UInt64} (hS : S ≠ 0) {k : ℕ} (hk : k < se.layout.count) :
    (lovStripeSize se.entry S k).toNat = (se.layout.fileOff k (S.toNat - 1) + 1) % 2 ^ 64 := by
  have hS' : 0 < S.toNat := by
    rcases Nat.eq_zero_or_pos S.toNat with h | h
    · exact absurd (UInt64.toNat_inj.mp (h.trans UInt64.toNat_zero.symm)) hS
    · exact h
  have hsz := se.layout.size_pos
  have hslt := se.layout_size_lt
  have hdm := Nat.div_add_mod S.toNat se.layout.size
  have hmod := Nat.mod_lt S.toNat hsz
  -- every operand is the 64-bit value of its number
  have ew : stripeWidth se.entry = UInt64.ofNat se.layout.width := eq_ofNat_of_toNat se.toNat_stripeWidth
  have es : se.entry.lsmeStripeSize.toUInt64 = UInt64.ofNat se.layout.size := eq_ofNat_of_toNat se.toNat_ssize
  have ek : k.toUInt64 = UInt64.ofNat k := eq_ofNat_of_toNat (se.toNat_stripeno hk)
  have eq : S / se.entry.lsmeStripeSize.toUInt64 = UInt64.ofNat (S.toNat / se.layout.size) :=
    eq_ofNat_of_toNat (by rw [UInt64.toNat_div, se.toNat_ssize])
  have er : S % se.entry.lsmeStripeSize.toUInt64 = UInt64.ofNat (S.toNat % se.layout.size) :=
    eq_ofNat_of_toNat (by rw [UInt64.toNat_mod, se.toNat_ssize])
  unfold lovStripeSize
  rw [if_neg hS]
  dsimp only
  split_ifs with h
  · -- the object ends inside a stripe
    have hr : S.toNat % se.layout.size ≠ 0 := fun h0 => h (by rw [er, h0]; rfl)
    have hdiv : (S.toNat - 1) / se.layout.size = S.toNat / se.layout.size := by
      rw [Nat.div_eq_iff hsz]
      constructor <;> rw [Nat.mul_comm] <;> omega
    have hmod' : (S.toNat - 1) % se.layout.size = S.toNat % se.layout.size - 1 := by
      have := Nat.div_add_mod (S.toNat - 1) se.layout.size
      rw [hdiv] at this
      omega
    rw [eq, er, ew, ek, es, ← UInt64.ofNat_mul, ← UInt64.ofNat_mul, ← UInt64.ofNat_add, ← UInt64.ofNat_add,
      UInt64.toNat_ofNat', Layout.fileOff, hdiv, hmod']
    congr 1
    omega
  · -- the object ends at the end of a stripe
    have hr : S.toNat % se.layout.size = 0 := by
      have := congrArg UInt64.toNat (not_not.mp h)
      rw [er, UInt64.toNat_ofNat', UInt64.toNat_zero, Nat.mod_eq_of_lt (by omega)] at this
      exact this
    have hq : 0 < S.toNat / se.layout.size := Nat.div_pos (by
      have := Nat.le_of_dvd hS' (Nat.dvd_of_mod_eq_zero hr)
      exact this) hsz
    -- the object's last byte is the last of the stripe of the row before
    have e : (S.toNat / se.layout.size - 1) * se.layout.size + se.layout.size = S.toNat := by
      rw [← Nat.succ_mul, Nat.succ_eq_add_one, Nat.sub_add_cancel hq, Nat.div_mul_cancel (Nat.dvd_of_mod_eq_zero hr)]
    have hdiv : (S.toNat - 1) / se.layout.size = S.toNat / se.layout.size - 1 := by
      rw [Nat.div_eq_iff hsz]
      omega
    have hmod' : (S.toNat - 1) % se.layout.size = se.layout.size - 1 := by
      have := Nat.div_add_mod (S.toNat - 1) se.layout.size
      rw [hdiv, Nat.mul_comm] at this
      omega
    have eq1 : S / se.entry.lsmeStripeSize.toUInt64 - 1 = UInt64.ofNat (S.toNat / se.layout.size - 1) := by
      rw [eq]
      apply eq_ofNat_of_toNat
      rw [UInt64.toNat_sub_of_le _ _ (by
        rw [UInt64.le_iff_toNat_le, UInt64.toNat_one, UInt64.toNat_ofNat', Nat.mod_eq_of_lt (by
          have := Nat.div_le_self S.toNat se.layout.size; have := S.toNat_lt; omega)]
        omega), UInt64.toNat_ofNat', UInt64.toNat_one, Nat.mod_eq_of_lt (by
          have := Nat.div_le_self S.toNat se.layout.size; have := S.toNat_lt; omega)]
    rw [eq1, ew, ek, es, show (1 : UInt64) = UInt64.ofNat 1 from rfl, ← UInt64.ofNat_add, ← UInt64.ofNat_mul,
      ← UInt64.ofNat_mul, ← UInt64.ofNat_add, UInt64.toNat_ofNat', Layout.fileOff, hdiv, hmod']
    congr 1
    rw [Nat.add_mul, Nat.one_mul]
    have := se.layout.size_pos
    omega

/-- For an offset on its own stripe, `lov_stripe_offset` finds where it lands
in that stripe's object. -/
theorem lovStripeOffset_objOff {x : UInt64} (hx : x ≠ obdObjectEof) :
    (lovStripeOffset se.entry x (lovStripeNumber se.entry x)).2.toNat = se.layout.objOff x.toNat := by
  have hk : lovStripeNumber se.entry x < se.layout.count := by
    rw [se.lovStripeNumber_eq]
    exact Layout.stripe_lt _
  rw [(se.lovStripeOffset_eq hx hk).1, Layout.objOff_eq_count, se.lovStripeNumber_eq]

end StripedEntry

/-! ## Striping is a bijection -/

/-- A component striped over `c` objects in stripes of `ssize` bytes, of
width `w`: an offset `x` is on stripe `(x mod w) / ssize`; on that stripe
`lov_stripe_offset` returns `0` with the object offset `(x / w) * ssize +
(x mod w) - k * ssize`; no two offsets land on one byte of one object, and
every byte `o` of the object of a stripe `k` whose file offset is a file
offset is landed on. (A Data-on-MDT component has one stripe.) -/
theorem lov_stripe_number_offset_bijective (se : StripedEntry) :
    (∀ x : UInt64, x ≠ obdObjectEof → ∀ k < se.layout.count,
      (lovStripeNumber se.entry x = k ↔
        x.toNat % (stripeWidth se.entry).toNat / se.entry.lsmeStripeSize.toNat = k) ∧
      (lovStripeNumber se.entry x = k →
        (lovStripeOffset se.entry x k).1 = 0 ∧
        (lovStripeOffset se.entry x k).2.toNat =
          x.toNat / (stripeWidth se.entry).toNat * se.entry.lsmeStripeSize.toNat +
            x.toNat % (stripeWidth se.entry).toNat - k * se.entry.lsmeStripeSize.toNat)) ∧
    (∀ x y : UInt64, x ≠ obdObjectEof → y ≠ obdObjectEof →
      lovStripeNumber se.entry x = lovStripeNumber se.entry y →
      (lovStripeOffset se.entry x (lovStripeNumber se.entry x)).2 =
        (lovStripeOffset se.entry y (lovStripeNumber se.entry y)).2 → x = y) ∧
    (∀ k < se.layout.count, ∀ o : UInt64, se.layout.fileOff k o.toNat < obdObjectEof.toNat →
      ∃ x : UInt64, x ≠ obdObjectEof ∧ lovStripeNumber se.entry x = k ∧ (lovStripeOffset se.entry x k).2 = o) := by
  refine ⟨fun x hx k hk => ⟨?_, fun hxk => ?_⟩, fun x y hx hy hnum hoff => ?_, fun k hk o ho => ?_⟩
  · rw [se.lovStripeNumber_eq, Layout.stripe, se.toNat_stripeWidth, StripedEntry.layout_size]
  · -- on its stripe, the offset is its row's stripe and its place in the stripe
    have hon : se.layout.stripe x.toNat = k := by rw [← se.lovStripeNumber_eq, hxk]
    refine ⟨(se.lovStripeOffset_eq hx hk).2.mpr hon, ?_⟩
    have hobj := se.lovStripeOffset_objOff hx
    rw [hxk] at hobj
    have hsplit := Nat.div_add_mod' (x.toNat % se.layout.width) se.layout.size
    rw [hobj, Layout.objOff, se.toNat_stripeWidth, ← StripedEntry.layout_size]
    unfold Layout.stripe at hon
    rw [hon] at hsplit
    omega
  · -- the stripe and the object offset give the offset back
    have h := congrArg UInt64.toNat hoff
    rw [se.lovStripeOffset_objOff hx, se.lovStripeOffset_objOff hy] at h
    rw [se.lovStripeNumber_eq, se.lovStripeNumber_eq] at hnum
    apply UInt64.toNat_inj.mp
    rw [← Layout.fileOff_stripe_objOff x.toNat, ← Layout.fileOff_stripe_objOff y.toNat, hnum, h]
  · -- the byte of the file at that object offset
    have hlt : se.layout.fileOff k o.toNat < 2 ^ 64 := by
      have : obdObjectEof.toNat < 2 ^ 64 := UInt64.toNat_lt _
      omega
    have hx : (UInt64.ofNat (se.layout.fileOff k o.toNat)).toNat = se.layout.fileOff k o.toNat := by
      rw [UInt64.toNat_ofNat', Nat.mod_eq_of_lt hlt]
    have hne : UInt64.ofNat (se.layout.fileOff k o.toNat) ≠ obdObjectEof := by
      intro h
      rw [h] at hx
      omega
    have hnum : lovStripeNumber se.entry (UInt64.ofNat (se.layout.fileOff k o.toNat)) = k := by
      rw [se.lovStripeNumber_eq, hx, Layout.stripe_fileOff hk]
    refine ⟨_, hne, hnum, UInt64.toNat_inj.mp ?_⟩
    have hobj := se.lovStripeOffset_objOff hne
    rw [hnum, hx, Layout.objOff_fileOff hk] at hobj
    exact hobj

/-- A component of four 1 MiB stripes. -/
def fourStripes : StripedEntry where
  entry := { lsmeExtent := ⟨0, obdObjectEof⟩, lsmeStripeSize := 1048576, lsmeStripeCount := 4, lsmeIsDom := false }
  size_pos := by decide
  count_pos := by decide

/-- The offset 5 MiB + 10 of a file striped over four 1 MiB stripes is on
stripe 1, 1 MiB + 10 into its object. -/
theorem lov_stripe_number_offset_five_mib :
    (5242890 : UInt64) ≠ obdObjectEof ∧ 1 < fourStripes.layout.count ∧
      (lovStripeNumber fourStripes.entry 5242890 = 1 →
        (lovStripeOffset fourStripes.entry 5242890 1).1 = 0 ∧
        (lovStripeOffset fourStripes.entry 5242890 1).2.toNat =
          (5242890 : UInt64).toNat / (stripeWidth fourStripes.entry).toNat * fourStripes.entry.lsmeStripeSize.toNat +
            (5242890 : UInt64).toNat % (stripeWidth fourStripes.entry).toNat - 1 * fourStripes.entry.lsmeStripeSize.toNat) :=
  ⟨by decide, by decide, ((lov_stripe_number_offset_bijective fourStripes).1 5242890 (by decide) 1 (by decide)).2⟩

/-! ## Object sizes and file sizes -/

namespace StripedEntry

variable (se : StripedEntry)

/-- The offsets below `2^64` that `lov_stripe_number` puts on stripe `k` are
those of the layout's stripe `k`. -/
theorem count_lovStripeNumber (k n : ℕ) (hn : n ≤ 2 ^ 64) :
    Nat.count (fun x => lovStripeNumber se.entry (UInt64.ofNat x) = k) n = Nat.count (se.layout.stripe · = k) n := by
  apply count_congr_of_lt
  intro x hx
  rw [se.lovStripeNumber_eq, UInt64.toNat_ofNat', Nat.mod_eq_of_lt (by omega)]

end StripedEntry

/-- For a file size `F` that is not `OBD_OBJECT_EOF`, `lov_size_to_stripe`
is the number of offsets below `F` on stripe `k`. For an object size `S > 0`
whose last byte lies at a file offset `x` with `x + 1` below
`OBD_OBJECT_EOF`, `lov_stripe_size` is `x + 1`, and `lov_size_to_stripe`
takes it back to `S`. -/
theorem lov_size_to_stripe_round_trip (se : StripedEntry) :
    (∀ F : UInt64, F ≠ obdObjectEof → ∀ k < se.layout.count,
      (lovSizeToStripe se.entry F k).toNat =
        Nat.count (fun x => lovStripeNumber se.entry (UInt64.ofNat x) = k) F.toNat) ∧
    (∀ S : UInt64, S ≠ 0 → ∀ k < se.layout.count, se.layout.fileOff k (S.toNat - 1) + 1 < obdObjectEof.toNat →
      ∃ x : UInt64, lovStripeNumber se.entry x = k ∧ (lovStripeOffset se.entry x k).2 = S - 1 ∧
        lovStripeSize se.entry S k = x + 1 ∧ lovSizeToStripe se.entry (lovStripeSize se.entry S k) k = S) := by
  have heof : obdObjectEof.toNat = 2 ^ 64 - 1 := rfl
  refine ⟨fun F hF k hk => ?_, fun S hS k hk hfit => ?_⟩
  · rw [se.lovSizeToStripe_eq hF hk, se.count_lovStripeNumber k F.toNat F.toNat_lt.le]
  · -- the last byte of the object, at offset `S - 1` of stripe `k`
    have hS1 : (S - 1).toNat = S.toNat - 1 := by
      rw [UInt64.toNat_sub_of_le _ _ ?_, UInt64.toNat_one]
      rw [UInt64.le_iff_toNat_le, UInt64.toNat_one]
      rcases Nat.eq_zero_or_pos S.toNat with h | h
      · exact absurd (UInt64.toNat_inj.mp (h.trans UInt64.toNat_zero.symm)) hS
      · exact h
    let x := UInt64.ofNat (se.layout.fileOff k (S.toNat - 1))
    have hx : x.toNat = se.layout.fileOff k (S.toNat - 1) := by
      rw [UInt64.toNat_ofNat', Nat.mod_eq_of_lt (by omega)]
    have hxne : x ≠ obdObjectEof := fun h => by rw [h] at hx; omega
    have hnum : lovStripeNumber se.entry x = k := by
      rw [se.lovStripeNumber_eq, hx, Layout.stripe_fileOff hk]
    have hsize : lovStripeSize se.entry S k = x + 1 := by
      apply UInt64.toNat_inj.mp
      rw [se.lovStripeSize_eq hS hk, UInt64.toNat_add, hx, UInt64.toNat_one]
    refine ⟨x, hnum, UInt64.toNat_inj.mp ?_, hsize, UInt64.toNat_inj.mp ?_⟩
    · have hobj := se.lovStripeOffset_objOff hxne
      rw [hnum, hx, Layout.objOff_fileOff hk] at hobj
      rw [hobj, hS1]
    · -- the file size ends just past the object's last byte
      have hF : (x + 1).toNat = se.layout.fileOff k (S.toNat - 1) + 1 := by
        rw [UInt64.toNat_add, hx, UInt64.toNat_one, Nat.mod_eq_of_lt (by omega)]
      have hFne : x + 1 ≠ obdObjectEof := fun h => by rw [h] at hF; omega
      have hlast : se.layout.stripe (se.layout.fileOff k (S.toNat - 1)) = k := Layout.stripe_fileOff hk _
      have hcount := Layout.objOff_eq_count (l := se.layout) (se.layout.fileOff k (S.toNat - 1))
      rw [hlast, Layout.objOff_fileOff hk] at hcount
      rw [hsize, se.lovSizeToStripe_eq hFne hk, hF, Nat.count_succ, if_pos hlast, ← hcount]
      rcases Nat.eq_zero_or_pos S.toNat with h | h
      · exact absurd (UInt64.toNat_inj.mp (h.trans UInt64.toNat_zero.symm)) hS
      · omega

/-- The last byte of an object of 3 MiB on stripe 2 of four 1 MiB stripes
is at 11 MiB - 1, and the sizes convert both ways. -/
theorem lov_size_to_stripe_three_mib :
    (3145728 : UInt64) ≠ 0 ∧ 2 < fourStripes.layout.count ∧
      fourStripes.layout.fileOff 2 ((3145728 : UInt64).toNat - 1) + 1 < obdObjectEof.toNat ∧
      ∃ x : UInt64, lovStripeNumber fourStripes.entry x = 2 ∧ (lovStripeOffset fourStripes.entry x 2).2 = 3145728 - 1 ∧
        lovStripeSize fourStripes.entry 3145728 2 = x + 1 ∧
        lovSizeToStripe fourStripes.entry (lovStripeSize fourStripes.entry 3145728 2) 2 = 3145728 :=
  ⟨by decide, by decide, by decide,
    (lov_size_to_stripe_round_trip fourStripes).2 3145728 (by decide) 2 (by decide) (by decide)⟩

/-- A component of two 1 MiB stripes. -/
def twoStripes : LovStripeMdEntry :=
  { lsmeExtent := ⟨0, obdObjectEof⟩, lsmeStripeSize := 1048576, lsmeStripeCount := 2, lsmeIsDom := false }

set_option maxRecDepth 8192 in
/-- An object of `2^63` bytes on stripe 1 of two 1 MiB stripes would end at
file offset `2^64`: `lov_stripe_size` wraps to `0`, and `lov_size_to_stripe`
takes that to `0`, not back to `2^63`. -/
theorem lov_stripe_size_wraps :
    lovStripeSize twoStripes (2 ^ 63) 1 = 0 ∧ lovSizeToStripe twoStripes (lovStripeSize twoStripes (2 ^ 63) 1) 1 ≠ 2 ^ 63 := by
  decide

/-! ## The object range of a file range -/

namespace StripedEntry

variable (se : StripedEntry)

/-- The two ends of a nonempty range `[a, b)` below `OBD_OBJECT_EOF`, moved
onto stripe `k` by `lov_stripe_offset` as `lov_stripe_intersects` moves them:
they meet off the stripe exactly when the stripe has no byte in the range, and
otherwise the start is the count of the stripe's bytes below `a` and the
touched-up end one less than the count below `b`. -/
theorem lovStripeOffset_ends {k : ℕ} (hk : k < se.layout.count) {a b : UInt64} (hab : a < b)
    (hb : b ≠ obdObjectEof) :
    ((lovStripeOffset se.entry a k).1 ≠ 0 ∧ (lovStripeOffset se.entry (b - 1) k).1 ≠ 0 ∧
        (lovStripeOffset se.entry a k).2 = (lovStripeOffset se.entry (b - 1) k).2 ↔
      Nat.count (se.layout.stripe · = k) b.toNat ≤ Nat.count (se.layout.stripe · = k) a.toNat) ∧
    (Nat.count (se.layout.stripe · = k) a.toNat < Nat.count (se.layout.stripe · = k) b.toNat →
      (lovStripeOffset se.entry a k).2.toNat = Nat.count (se.layout.stripe · = k) a.toNat ∧
      (if (lovStripeOffset se.entry (b - 1) k).1 ≠ 0 then (lovStripeOffset se.entry (b - 1) k).2 - 1
        else (lovStripeOffset se.entry (b - 1) k).2).toNat + 1 = Nat.count (se.layout.stripe · = k) b.toNat) := by
  have hlt : a.toNat < b.toNat := UInt64.lt_iff_toNat_lt.mp hab
  have heof : obdObjectEof.toNat = 2 ^ 64 - 1 := rfl
  have hbne : b.toNat ≠ 2 ^ 64 - 1 := fun h => hb (UInt64.toNat_inj.mp (h.trans heof.symm))
  have hb1 : (b - 1).toNat = b.toNat - 1 := by
    rw [UInt64.toNat_sub_of_le _ _ (by rw [UInt64.le_iff_toNat_le, UInt64.toNat_one]; omega), UInt64.toNat_one]
  have hane : a ≠ obdObjectEof := fun h => by
    rw [h, heof] at hlt
    have := b.toNat_lt
    omega
  have hb1ne : b - 1 ≠ obdObjectEof := fun h => by
    rw [h, heof] at hb1
    have := b.toNat_lt
    omega
  obtain ⟨hs2, hs1⟩ := se.lovStripeOffset_eq hane hk
  obtain ⟨ht2, ht1⟩ := se.lovStripeOffset_eq hb1ne hk
  rw [hb1] at ht2 ht1
  -- the count below `b` adds the last byte of the range
  have hlast : Nat.count (se.layout.stripe · = k) b.toNat =
      Nat.count (se.layout.stripe · = k) (b.toNat - 1) + if se.layout.stripe (b.toNat - 1) = k then 1 else 0 := by
    rw [← Nat.count_succ, Nat.sub_add_cancel (by omega)]
  have hmono : Nat.count (se.layout.stripe · = k) a.toNat ≤ Nat.count (se.layout.stripe · = k) (b.toNat - 1) :=
    Nat.count_monotone _ (by omega)
  constructor
  · constructor
    · rintro ⟨-, htb, heq⟩
      have := congrArg UInt64.toNat heq
      rw [hs2, ht2] at this
      rw [hlast, if_neg fun h => htb (ht1.mpr h)]
      omega
    · intro hle
      -- neither end is on the stripe, else the count would grow across the range
      have htb : ¬ se.layout.stripe (b.toNat - 1) = k := fun h => by
        rw [hlast, if_pos h] at hle
        omega
      have hsa : ¬ se.layout.stripe a.toNat = k := fun h => by
        have := Nat.count_strict_mono (p := (se.layout.stripe · = k)) h hlt
        omega
      rw [hlast, if_neg htb] at hle
      refine ⟨fun h => hsa (hs1.mp h), fun h => htb (ht1.mp h), UInt64.toNat_inj.mp ?_⟩
      rw [hs2, ht2]
      omega
  · intro hcount
    refine ⟨hs2, ?_⟩
    by_cases htb : se.layout.stripe (b.toNat - 1) = k
    · -- the end is on the stripe and stays
      rw [if_neg (not_not.mpr (ht1.mpr htb)), ht2, hlast, if_pos htb]
    · -- the end moved forward past the last byte of the stripe in the range
      rw [hlast, if_neg htb] at hcount ⊢
      have hpos : 1 ≤ (lovStripeOffset se.entry (b - 1) k).2.toNat := by omega
      rw [if_pos fun h => htb (ht1.mp h),
        UInt64.toNat_sub_of_le _ _ (by rw [UInt64.le_iff_toNat_le, UInt64.toNat_one]; exact hpos), UInt64.toNat_one]
      omega

/-- A file extent overlaps the component's exactly when their common range is
nonempty, for a nonempty extent and a nonempty component. -/
theorem luExtentIsOverlapped_iff (hcomp : se.entry.lsmeExtent.eStart < se.entry.lsmeExtent.eEnd) {ext : LuExtent}
    (hext : ext.eStart < ext.eEnd) :
    luExtentIsOverlapped ext se.entry.lsmeExtent = true ↔
      max ext.eStart se.entry.lsmeExtent.eStart < min ext.eEnd se.entry.lsmeExtent.eEnd := by
  rw [luExtentIsOverlapped, Bool.and_eq_true, decide_eq_true_iff, decide_eq_true_iff]
  simp only [UInt64.lt_iff_toNat_lt, UInt64.toNat_max, UInt64.toNat_min] at hcomp hext ⊢
  omega

/-- The offsets of a range that are on stripe `k`: there are some exactly
when the count of the stripe's bytes grows across the range. -/
theorem exists_lovStripeNumber_iff (k : ℕ) (a b : UInt64) :
    (∃ x, a ≤ x ∧ x < b ∧ lovStripeNumber se.entry x = k) ↔
      Nat.count (se.layout.stripe · = k) a.toNat < Nat.count (se.layout.stripe · = k) b.toNat := by
  simp only [se.lovStripeNumber_eq]
  rw [exists_toNat_iff (P := (se.layout.stripe · = k)), exists_iff_count_lt]

/-- The object offsets that the offsets of a range on stripe `k` land on are
the numbers from the count of the stripe's bytes below the start to the count
below the end. -/
theorem exists_lovStripeOffset_iff {k : ℕ} (hk : k < se.layout.count) (a b o : UInt64) :
    (∃ x, a ≤ x ∧ x < b ∧ lovStripeNumber se.entry x = k ∧ (lovStripeOffset se.entry x k).2 = o) ↔
      Nat.count (se.layout.stripe · = k) a.toNat ≤ o.toNat ∧ o.toNat < Nat.count (se.layout.stripe · = k) b.toNat := by
  -- below `b`, an offset is not `OBD_OBJECT_EOF`, and on its stripe it lands on its object offset
  have hland : ∀ x : UInt64, x < b →
      (lovStripeNumber se.entry x = k ∧ (lovStripeOffset se.entry x k).2 = o ↔
        se.layout.stripe x.toNat = k ∧ se.layout.objOff x.toNat = o.toNat) := by
    intro x hxb
    have hx : x ≠ obdObjectEof := fun h => by
      rw [h, UInt64.lt_iff_toNat_lt] at hxb
      have := b.toNat_lt
      have : obdObjectEof.toNat = 2 ^ 64 - 1 := rfl
      omega
    rw [se.lovStripeNumber_eq, ← UInt64.toNat_inj]
    constructor
    · rintro ⟨hon, hoff⟩
      rw [Layout.objOff_eq_count, hon, ← hoff, (se.lovStripeOffset_eq hx hk).1]
      exact ⟨rfl, rfl⟩
    · rintro ⟨hon, hoff⟩
      rw [Layout.objOff_eq_count, hon] at hoff
      rw [(se.lovStripeOffset_eq hx hk).1, hoff]
      exact ⟨hon, rfl⟩
  have hcongr : (∃ x, a ≤ x ∧ x < b ∧ lovStripeNumber se.entry x = k ∧ (lovStripeOffset se.entry x k).2 = o) ↔
      ∃ x : UInt64, a ≤ x ∧ x < b ∧ (se.layout.stripe x.toNat = k ∧ se.layout.objOff x.toNat = o.toNat) := by
    apply exists_congr
    intro x
    constructor
    · rintro ⟨hax, hxb, h⟩
      exact ⟨hax, hxb, (hland x hxb).mp h⟩
    · rintro ⟨hax, hxb, h⟩
      exact ⟨hax, hxb, (hland x hxb).mpr h⟩
  rw [hcongr, exists_toNat_iff (P := fun n => se.layout.stripe n = k ∧ se.layout.objOff n = o.toNat),
    Layout.objOff_mem_iff hk]

/-- An extent and a component with nothing in common give nothing. -/
theorem lovStripeIntersects_of_not_lt (hcomp : se.entry.lsmeExtent.eStart < se.entry.lsmeExtent.eEnd) (k : ℕ)
    {ext : LuExtent} (hext : ext.eStart < ext.eEnd)
    (hab : ¬ max ext.eStart se.entry.lsmeExtent.eStart < min ext.eEnd se.entry.lsmeExtent.eEnd) :
    lovStripeIntersects se.entry k ext = none := by
  have hov : luExtentIsOverlapped ext se.entry.lsmeExtent = false := by
    rw [← Bool.not_eq_true, se.luExtentIsOverlapped_iff hcomp hext]
    exact hab
  unfold lovStripeIntersects
  rw [hov]
  rfl

/-- A common range that runs to `OBD_OBJECT_EOF` gives the object range from
where its start lands to `OBD_OBJECT_EOF`. -/
theorem lovStripeIntersects_eof (hcomp : se.entry.lsmeExtent.eStart < se.entry.lsmeExtent.eEnd) (k : ℕ)
    {ext : LuExtent} (hext : ext.eStart < ext.eEnd) (hb : min ext.eEnd se.entry.lsmeExtent.eEnd = obdObjectEof) :
    lovStripeIntersects se.entry k ext =
      some ((lovStripeOffset se.entry (max ext.eStart se.entry.lsmeExtent.eStart) k).2, obdObjectEof) := by
  -- both ends are `OBD_OBJECT_EOF`, so the ranges overlap
  have hov : luExtentIsOverlapped ext se.entry.lsmeExtent = true := by
    rw [se.luExtentIsOverlapped_iff hcomp hext, hb]
    have heof : obdObjectEof.toNat = 2 ^ 64 - 1 := rfl
    have hb' := congrArg UInt64.toNat hb
    rw [UInt64.toNat_min, heof] at hb'
    have := ext.eEnd.toNat_lt
    have := se.entry.lsmeExtent.eEnd.toNat_lt
    simp only [UInt64.lt_iff_toNat_lt, UInt64.toNat_max, heof] at hcomp hext ⊢
    omega
  -- the end stays at `OBD_OBJECT_EOF`, which every stripe takes to itself with `0`
  have hend : lovStripeOffset se.entry obdObjectEof k = (0, obdObjectEof) := by
    unfold lovStripeOffset
    rw [if_pos rfl]
  unfold lovStripeIntersects
  simp only [hov, Bool.not_true, Bool.false_eq_true, if_false]
  rw [hb, if_neg (not_not.mpr rfl), hend, if_neg fun h => h.2.1 rfl, if_neg (not_not.mpr rfl)]

/-- On a common range `[a, b)` that is nonempty and ends below
`OBD_OBJECT_EOF`, `lov_stripe_intersects` finds nothing exactly when stripe
`k` has no byte in the range, and otherwise the object offsets from the count
of its bytes below `a` up to one less than the count below `b`. -/
theorem lovStripeIntersects_count {k : ℕ} (hk : k < se.layout.count) {ext : LuExtent}
    (hab : max ext.eStart se.entry.lsmeExtent.eStart < min ext.eEnd se.entry.lsmeExtent.eEnd)
    (hb : min ext.eEnd se.entry.lsmeExtent.eEnd ≠ obdObjectEof) :
    (lovStripeIntersects se.entry k ext = none ↔
      Nat.count (se.layout.stripe · = k) (min ext.eEnd se.entry.lsmeExtent.eEnd).toNat ≤
        Nat.count (se.layout.stripe · = k) (max ext.eStart se.entry.lsmeExtent.eStart).toNat) ∧
    ∀ lo hi, lovStripeIntersects se.entry k ext = some (lo, hi) →
      lo.toNat = Nat.count (se.layout.stripe · = k) (max ext.eStart se.entry.lsmeExtent.eStart).toNat ∧
      hi.toNat + 1 = Nat.count (se.layout.stripe · = k) (min ext.eEnd se.entry.lsmeExtent.eEnd).toNat := by
  have hov : luExtentIsOverlapped ext se.entry.lsmeExtent = true := by
    rw [luExtentIsOverlapped, Bool.and_eq_true, decide_eq_true_iff, decide_eq_true_iff]
    simp only [UInt64.lt_iff_toNat_lt, UInt64.toNat_max, UInt64.toNat_min] at hab ⊢
    omega
  obtain ⟨hnone, hsome⟩ := se.lovStripeOffset_ends hk hab hb
  unfold lovStripeIntersects
  simp only [hov, Bool.not_true, Bool.false_eq_true, if_false]
  rw [if_pos hb]
  by_cases hmeet : (lovStripeOffset se.entry (max ext.eStart se.entry.lsmeExtent.eStart) k).1 ≠ 0 ∧
      (lovStripeOffset se.entry (min ext.eEnd se.entry.lsmeExtent.eEnd - 1) k).1 ≠ 0 ∧
      (lovStripeOffset se.entry (max ext.eStart se.entry.lsmeExtent.eStart) k).2 =
        (lovStripeOffset se.entry (min ext.eEnd se.entry.lsmeExtent.eEnd - 1) k).2
  · rw [if_pos hmeet]
    exact ⟨iff_of_true rfl (hnone.mp hmeet), fun lo hi h => (by cases h)⟩
  · rw [if_neg hmeet]
    have hlt := Nat.lt_of_not_le fun h => hmeet (hnone.mpr h)
    obtain ⟨hlo, hhi⟩ := hsome hlt
    refine ⟨iff_of_false (fun h => (by cases h)) (Nat.not_le_of_lt hlt), fun lo hi h => ?_⟩
    cases h
    exact ⟨hlo, hhi⟩

end StripedEntry

/-- For a component `[cs, ce)` with `cs < ce`, a stripe `k` and a file
extent `[s, e)` with `s < e`, let `[a, b)` be their common range. If `b` is
not `OBD_OBJECT_EOF`, `lov_stripe_intersects` returns 1 exactly when an
offset of `[a, b)` is on stripe `k`, and the closed range `[*obd_start,
*obd_end]` it then returns is exactly the set of object offsets those offsets
land on. A common range that runs to `OBD_OBJECT_EOF` gives the object range
from where `a` lands to `OBD_OBJECT_EOF`. -/
theorem lov_stripe_intersects_range (se : StripedEntry)
    (hcomp : se.entry.lsmeExtent.eStart < se.entry.lsmeExtent.eEnd) :
    ∀ k < se.layout.count, ∀ ext : LuExtent, ext.eStart < ext.eEnd →
      (min ext.eEnd se.entry.lsmeExtent.eEnd ≠ obdObjectEof →
        ((lovStripeIntersects se.entry k ext).isSome ↔
          ∃ x, max ext.eStart se.entry.lsmeExtent.eStart ≤ x ∧ x < min ext.eEnd se.entry.lsmeExtent.eEnd ∧
            lovStripeNumber se.entry x = k) ∧
        ∀ lo hi, lovStripeIntersects se.entry k ext = some (lo, hi) → ∀ o : UInt64,
          ((∃ x, max ext.eStart se.entry.lsmeExtent.eStart ≤ x ∧ x < min ext.eEnd se.entry.lsmeExtent.eEnd ∧
            lovStripeNumber se.entry x = k ∧ (lovStripeOffset se.entry x k).2 = o) ↔ lo ≤ o ∧ o ≤ hi)) ∧
      (min ext.eEnd se.entry.lsmeExtent.eEnd = obdObjectEof →
        lovStripeIntersects se.entry k ext =
          some ((lovStripeOffset se.entry (max ext.eStart se.entry.lsmeExtent.eStart) k).2, obdObjectEof)) := by
  intro k hk ext hext
  refine ⟨fun hb => ?_, se.lovStripeIntersects_eof hcomp k hext⟩
  by_cases hab : max ext.eStart se.entry.lsmeExtent.eStart < min ext.eEnd se.entry.lsmeExtent.eEnd
  · -- a nonempty common range: both answers are counts of the stripe's bytes
    obtain ⟨hnone, hsome⟩ := se.lovStripeIntersects_count hk hab hb
    constructor
    · rw [Option.isSome_iff_ne_none, Ne, hnone, Nat.not_le, se.exists_lovStripeNumber_iff]
    · intro lo hi h o
      obtain ⟨hlo, hhi⟩ := hsome lo hi h
      rw [se.exists_lovStripeOffset_iff hk, UInt64.le_iff_toNat_le, UInt64.le_iff_toNat_le, hlo]
      omega
  · -- no common range, and no answer
    rw [se.lovStripeIntersects_of_not_lt hcomp k hext hab]
    refine ⟨iff_of_false Bool.false_ne_true fun ⟨x, hax, hxb, _⟩ => hab (UInt64.lt_of_le_of_lt hax hxb), ?_⟩
    intro lo hi h
    exact nomatch h

/-- On four 1 MiB stripes, the file range `[1 MiB + 10, 6 MiB)` has bytes of
stripe 1, and its object range is the offsets they land on. -/
theorem lov_stripe_intersects_one_mib :
    fourStripes.entry.lsmeExtent.eStart < fourStripes.entry.lsmeExtent.eEnd ∧ 1 < fourStripes.layout.count ∧
      (1048586 : UInt64) < 6291456 ∧
      ((lovStripeIntersects fourStripes.entry 1 ⟨1048586, 6291456⟩).isSome ↔
        ∃ x, max (1048586 : UInt64) fourStripes.entry.lsmeExtent.eStart ≤ x ∧
          x < min (6291456 : UInt64) fourStripes.entry.lsmeExtent.eEnd ∧ lovStripeNumber fourStripes.entry x = 1) :=
  ⟨by decide, by decide, by decide,
    (((lov_stripe_intersects_range fourStripes (by decide)) 1 (by decide) ⟨1048586, 6291456⟩ (by decide)).1
      (by decide)).1⟩

/-- A range that runs to `OBD_OBJECT_EOF`: stripe 0 of four 1 MiB stripes
gets the object range `[0, OBD_OBJECT_EOF]`, though no offset of the file
lands on object offset `OBD_OBJECT_EOF`. A component `[10, 10)` holds no
offset, yet a file extent `[0, 20)` overlaps it and gets the object range
`[10, 9]`. -/
theorem lov_stripe_intersects_past_range :
    (lovStripeIntersects fourStripes.entry 0 ⟨0, obdObjectEof⟩ = some (0, obdObjectEof) ∧
      ∀ x : UInt64, x < obdObjectEof → (lovStripeOffset fourStripes.entry x 0).2 < obdObjectEof) ∧
    lovStripeIntersects { fourStripes.entry with lsmeExtent := ⟨10, 10⟩ } 0 ⟨0, 20⟩ = some (10, 9) := by
  refine ⟨⟨by decide, fun x hx => ?_⟩, by decide⟩
  -- the object offset counts bytes below `x`, fewer than `x` itself
  have hne : x ≠ obdObjectEof := UInt64.ne_of_lt hx
  rw [UInt64.lt_iff_toNat_lt, (fourStripes.lovStripeOffset_eq hne (by decide)).1]
  exact lt_of_le_of_lt (Nat.count_le _) (UInt64.lt_iff_toNat_lt.mp hx)

end Lustre.Lov
