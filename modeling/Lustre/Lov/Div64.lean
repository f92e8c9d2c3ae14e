import Mathlib
import Lustre.Lov.Offset
import Lustre.Lib.CArith

/-! # `lov_do_div64` on 32-bit hosts

`lustre/lov/lov_internal.h`. `lov_do_div64(n, base)` divides the `u64` `n`
by `base`, leaving the quotient in `n` and returning the remainder. A 64-bit
host divides directly. A 32-bit host has only `do_div`, whose divisor is a
`uint32_t`: a divisor with high bits set must be a multiple of
`LOV_MIN_STRIPE_SIZE` (`LASSERTF`), and the division is done on `n` and
`base` shifted right by `LOV_MIN_STRIPE_BITS`, the low bits of `n` added
back to the remainder.

A trap (a zero divisor) and a failed `LASSERTF` are `none`. The shifted
divisor is truncated to 32 bits on its way into `do_div`, so the two
variants agree exactly when `base >> LOV_MIN_STRIPE_BITS` fits in 32 bits
(`lovDoDiv64Bits32_eq`): stripe widths do, a divisor of `2^48` or more
does not.
-/

namespace Lustre.Lov

/-- `LOV_MIN_STRIPE_BITS`. -/
def lovMinStripeBits : UInt64 := 16

/-- `LOV_MIN_STRIPE_SIZE`. -/
def lovMinStripeSize : UInt64 := 1 <<< lovMinStripeBits

/-- `do_div(n, base)` of a 32-bit host: the quotient, and the remainder it
returns; `base` is a `uint32_t`. -/
def doDiv (n : UInt64) (base : UInt32) : Option (UInt64 × UInt32) :=
  if base = 0 then none else some (n / base.toUInt64, (n % base.toUInt64).toUInt32)

/-- `lov_do_div64(n, base)` with `BITS_PER_LONG == 64`: the quotient left in
`n` and the remainder. -/
def lovDoDiv64 (n base : UInt64) : Option (UInt64 × UInt64) :=
  if base = 0 then none else some (n / base, n % base)

/-- `lov_do_div64(n, base)` with `BITS_PER_LONG == 32`. -/
def lovDoDiv64Bits32 (n base : UInt64) : Option (UInt64 × UInt64) :=
  if base &&& 0xffffffff00000000 ≠ 0 then
    -- LASSERTF(!((base) & (LOV_MIN_STRIPE_SIZE - 1)))
    if base &&& (lovMinStripeSize - 1) ≠ 0 then none
    else
      let remainder := n &&& (lovMinStripeSize - 1)
      (doDiv (n >>> lovMinStripeBits) (base >>> lovMinStripeBits).toUInt32).map fun (num, rem) =>
        (num, (rem.toUInt64 <<< lovMinStripeBits) + remainder)
  else (doDiv n base.toUInt32).map fun (num, rem) => (num, rem.toUInt64)

/-! ## The pieces as numbers -/

theorem toNat_and_low (n : UInt64) : (n &&& (lovMinStripeSize - 1)).toNat = n.toNat % 2 ^ 16 := by
  rw [show lovMinStripeSize - 1 = 65535 by decide, UInt64.toNat_and]
  exact Nat.and_two_pow_sub_one_eq_mod _ 16

theorem toNat_shiftRight_bits (n : UInt64) : (n >>> lovMinStripeBits).toNat = n.toNat / 2 ^ 16 := by
  simp [lovMinStripeBits, UInt64.toNat_shiftRight, Nat.shiftRight_eq_div_pow]

/-- The high half of a divisor is clear exactly below `2^32`. -/
theorem and_high_eq_zero_iff (b : UInt64) : b &&& 0xffffffff00000000 = 0 ↔ b.toNat < 2 ^ 32 := by
  have hmask : (0xffffffff00000000 : UInt64).toNat = 2 ^ 64 - 2 ^ 32 := by decide
  have hlow : b.toNat / 2 ^ 32 * 2 ^ 32 = 0 ↔ b.toNat < 2 ^ 32 := by
    constructor
    · intro h
      have := Nat.mod_add_div b.toNat (2 ^ 32)
      have := Nat.mod_lt b.toNat (show 0 < 2 ^ 32 by decide)
      rw [Nat.mul_comm] at h
      omega
    · intro h
      rw [Nat.div_eq_of_lt h, Nat.zero_mul]
  rw [← UInt64.toNat_inj, UInt64.toNat_and, hmask, CArith.and_two_pow_sub_two_pow (by decide) b.toNat_lt,
    UInt64.toNat_zero, hlow]

theorem doDiv_spec (n : UInt64) {base : UInt32} (hb : base ≠ 0) :
    doDiv n base = some (UInt64.ofNat (n.toNat / base.toNat), UInt32.ofNat (n.toNat % base.toNat)) := by
  have hlt : n.toNat % base.toNat < base.toNat := Nat.mod_lt _ (by
    rw [Nat.pos_iff_ne_zero, ne_eq, ← UInt32.toNat_zero, UInt32.toNat_inj]; exact hb)
  rw [doDiv, if_neg hb]
  refine congrArg some (Prod.ext ?_ ?_)
  · apply UInt64.toNat_inj.1
    rw [UInt64.toNat_div, UInt32.toNat_toUInt64, UInt64.toNat_ofNat', Nat.mod_eq_of_lt (by
      have := Nat.div_le_self n.toNat base.toNat; have := n.toNat_lt; omega)]
  · apply UInt32.toNat_inj.1
    have := base.toNat_lt
    rw [UInt64.toNat_toUInt32, UInt64.toNat_mod, UInt32.toNat_toUInt64, UInt32.toNat_ofNat',
      Nat.mod_eq_of_lt (by omega)]

/-! ## The two variants agree -/

/-- The 64-bit variant divides. -/
theorem lovDoDiv64_eq (n : UInt64) {base : UInt64} (hb : 0 < base) :
    lovDoDiv64 n base = some (n / base, n % base) := by
  rw [lovDoDiv64, if_neg (by intro h; rw [h] at hb; exact absurd hb (by decide))]

/-- A divisor below `2^32` goes to `do_div` whole. -/
theorem lovDoDiv64Bits32_of_lt (n : UInt64) {base : UInt64} (hb : 0 < base) (hlt : base.toNat < 2 ^ 32) :
    lovDoDiv64Bits32 n base = some (n / base, n % base) := by
  have h32 : base.toUInt32.toNat = base.toNat := by
    rw [UInt64.toNat_toUInt32, Nat.mod_eq_of_lt hlt]
  have hne : base.toUInt32 ≠ 0 := by
    rw [ne_eq, ← UInt32.toNat_inj, h32, UInt32.toNat_zero]
    exact Nat.pos_iff_ne_zero.1 (UInt64.lt_iff_toNat_lt.1 hb)
  rw [lovDoDiv64Bits32, if_neg (not_not.2 ((and_high_eq_zero_iff base).2 hlt)), doDiv_spec n hne,
    Option.map_some, h32]
  dsimp only
  congr 2
  · apply UInt64.toNat_inj.1
    rw [UInt64.toNat_div, UInt64.toNat_ofNat', Nat.mod_eq_of_lt (lt_of_le_of_lt (Nat.div_le_self _ _) n.toNat_lt)]
  · apply UInt64.toNat_inj.1
    have := Nat.mod_lt n.toNat (UInt64.lt_iff_toNat_lt.1 hb)
    rw [UInt64.toNat_mod, UInt32.toNat_toUInt64, UInt32.toNat_ofNat', Nat.mod_eq_of_lt (by omega)]

/-- A divisor from `2^32` to below `2^48`, a multiple of
`LOV_MIN_STRIPE_SIZE`: the shifted division gives the same quotient, and
the shifted remainder with the low bits added back the same remainder. -/
theorem lovDoDiv64Bits32_of_ge (n : UInt64) {base : UInt64} (hge : 2 ^ 32 ≤ base.toNat)
    (hlt : base.toNat < 2 ^ 48) (hal : base.toNat % 2 ^ 16 = 0) :
    lovDoDiv64Bits32 n base = some (n / base, n % base) := by
  -- the divisor is `2^16 * b'` with `b'` a nonzero 32-bit value
  obtain ⟨b', hb'⟩ : ∃ b', base.toNat = 2 ^ 16 * b' := ⟨base.toNat / 2 ^ 16, by omega⟩
  have hb'lt : b' < 2 ^ 32 := by omega
  have hb'pos : 0 < b' := by omega
  have h32 : (base >>> lovMinStripeBits).toUInt32.toNat = b' := by
    rw [UInt64.toNat_toUInt32, toNat_shiftRight_bits, hb', Nat.mul_div_cancel_left _ (by decide),
      Nat.mod_eq_of_lt hb'lt]
  have hne : (base >>> lovMinStripeBits).toUInt32 ≠ 0 := by
    rw [ne_eq, ← UInt32.toNat_inj, h32, UInt32.toNat_zero]
    omega
  have hlow : base &&& (lovMinStripeSize - 1) = 0 := by
    rw [← UInt64.toNat_inj, toNat_and_low, UInt64.toNat_zero, hal]
  have hhigh : base &&& 0xffffffff00000000 ≠ 0 := fun h => by
    have := (and_high_eq_zero_iff base).1 h
    omega
  rw [lovDoDiv64Bits32, if_pos hhigh, if_neg (not_not.2 hlow), doDiv_spec _ hne, Option.map_some, h32,
    toNat_shiftRight_bits]
  -- the shifted remainder is below `2^32`, so the sum stays below `2^48`
  have hrem : n.toNat / 2 ^ 16 % b' < 2 ^ 32 := lt_trans (Nat.mod_lt _ hb'pos) hb'lt
  have hlow' : n.toNat % 2 ^ 16 < 2 ^ 16 := Nat.mod_lt _ (by decide)
  dsimp only
  congr 2
  · apply UInt64.toNat_inj.1
    rw [UInt64.toNat_div, hb', ← Nat.div_div_eq_div_mul, UInt64.toNat_ofNat',
      Nat.mod_eq_of_lt (lt_of_le_of_lt (Nat.div_le_self _ _) (lt_of_le_of_lt (Nat.div_le_self _ _) n.toNat_lt))]
  · apply UInt64.toNat_inj.1
    have hshift : ((UInt32.ofNat (n.toNat / 2 ^ 16 % b')).toUInt64 <<< lovMinStripeBits).toNat =
        n.toNat / 2 ^ 16 % b' * 2 ^ 16 := by
      rw [UInt64.toNat_shiftLeft, UInt32.toNat_toUInt64, UInt32.toNat_ofNat', Nat.mod_eq_of_lt hrem,
        Nat.shiftLeft_eq, show lovMinStripeBits.toNat % 64 = 16 by decide]
      exact Nat.mod_eq_of_lt (by omega)
    rw [UInt64.toNat_add, hshift, toNat_and_low, UInt64.toNat_mod, hb', Nat.mod_mul]
    omega

/-- Below `2^48`, a divisor that is a multiple of `LOV_MIN_STRIPE_SIZE` when
it does not fit in 32 bits divides exactly. -/
theorem lovDoDiv64Bits32_eq (n : UInt64) {base : UInt64} (hb : 0 < base) (hlt : base.toNat < 2 ^ 48)
    (hal : 2 ^ 32 ≤ base.toNat → base.toNat % 2 ^ 16 = 0) :
    lovDoDiv64Bits32 n base = some (n / base, n % base) := by
  by_cases h32 : base.toNat < 2 ^ 32
  · exact lovDoDiv64Bits32_of_lt n hb h32
  · have hge : 2 ^ 32 ≤ base.toNat := by omega
    exact lovDoDiv64Bits32_of_ge n hge hlt (hal hge)

/-- For every numerator and every divisor `0 < b < 2^48` that is a multiple
of `LOV_MIN_STRIPE_SIZE` when it does not fit in 32 bits, the 32-bit
variant gives the quotient and the remainder of the 64-bit one. -/
theorem lov_do_div64_bits32_agrees (n base : UInt64) (hb : 0 < base) (hlt : base.toNat < 2 ^ 48)
    (hal : 2 ^ 32 ≤ base.toNat → base.toNat % 2 ^ 16 = 0) :
    lovDoDiv64Bits32 n base = lovDoDiv64 n base := by
  rw [lovDoDiv64_eq n hb, lovDoDiv64Bits32_eq n hb hlt hal]

theorem lov_do_div64_bits32_agrees_at_stripe : (0 : UInt64) < 0x300000 ∧ (0x300000 : UInt64).toNat < 2 ^ 48 ∧
    (2 ^ 32 ≤ (0x300000 : UInt64).toNat → (0x300000 : UInt64).toNat % 2 ^ 16 = 0) ∧
    lovDoDiv64Bits32 0x1234567 0x300000 = lovDoDiv64 0x1234567 0x300000 :=
  ⟨by decide, by decide, by decide, lov_do_div64_bits32_agrees 0x1234567 0x300000 (by decide) (by decide) (by decide)⟩

/-- A divisor of `2^48` or more loses its high bits on the way into
`do_div`: `2^48 + 2^16` is divided as `1`. -/
theorem lov_do_div64_bits32_truncates :
    lovDoDiv64Bits32 (2 ^ 48 + 2 ^ 16) (2 ^ 48 + 2 ^ 16) = some (2 ^ 32 + 1, 0) ∧
      lovDoDiv64 (2 ^ 48 + 2 ^ 16) (2 ^ 48 + 2 ^ 16) = some (1, 0) := by
  decide

/-! ## Stripe widths -/

end Lustre.Lov
