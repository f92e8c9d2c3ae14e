import Mathlib

/-! # Bit length: `fls64` and the overflow test built on it

`fls64(x)` is the position of the most significant set bit of `x`, counting
from 1, and 0 for 0. Code tests whether a product `a * b` fits 64 bits by
`fls64(a) + fls64(b) - 1 > 64`. A product it accepts has at most 65 bits, so
it may still wrap; when one factor is a power of two the test is exact
(`mul_lt_of_fls_two_pow`).

Nothing here refers to a particular program.
-/

namespace CArith

/-- The bit length of `x`, looking at `k` bits at most. -/
def flsBits : Nat → Nat → Nat
  | 0, _ => 0
  | k + 1, x => if x = 0 then 0 else flsBits k (x / 2) + 1

/-- `fls64(x)`. -/
def fls64 (x : UInt64) : Nat := flsBits 64 x.toNat

@[simp]
theorem flsBits_zero_right (k : Nat) : flsBits k 0 = 0 := by
  cases k <;> simp [flsBits]

/-- The bit length brackets a positive value: `2 ^ (b - 1) ≤ x < 2 ^ b`. -/
theorem flsBits_spec : ∀ (k x : Nat), x < 2 ^ k → 0 < x →
    0 < flsBits k x ∧ 2 ^ (flsBits k x - 1) ≤ x ∧ x < 2 ^ flsBits k x
  | 0, x, hk, hx => by simp at hk; omega
  | k + 1, x, hk, hx => by
    have hx0 : x ≠ 0 := by omega
    simp only [flsBits, if_neg hx0, Nat.add_sub_cancel]
    by_cases h1 : x / 2 = 0
    · -- `x = 1`: the bits above the lowest are all clear
      have : x = 1 := by omega
      subst this
      simp [h1]
    · have hk' : x / 2 < 2 ^ k := by rw [Nat.pow_succ] at hk; omega
      obtain ⟨hpos, hlo, hhi⟩ := flsBits_spec k (x / 2) hk' (by omega)
      have hlo' : 2 ^ flsBits k (x / 2) ≤ x := by
        obtain ⟨b, hb⟩ : ∃ b, flsBits k (x / 2) = b + 1 := ⟨_, (Nat.succ_pred_eq_of_pos hpos).symm⟩
        rw [hb, Nat.add_sub_cancel] at hlo
        rw [hb, Nat.pow_succ]
        omega
      refine ⟨by omega, hlo', ?_⟩
      rw [Nat.pow_succ]
      omega

/-- The bracket for `fls64`. -/
theorem fls64_spec {x : UInt64} (hx : 0 < x.toNat) :
    0 < fls64 x ∧ 2 ^ (fls64 x - 1) ≤ x.toNat ∧ x.toNat < 2 ^ fls64 x :=
  flsBits_spec 64 x.toNat x.toNat_lt hx

/-- The bit length of `2 ^ j` is `j + 1`. -/
theorem fls64_two_pow {x : UInt64} {j : Nat} (hx : x.toNat = 2 ^ j) : fls64 x = j + 1 := by
  obtain ⟨hpos, hlo, hhi⟩ := fls64_spec (x := x) (by rw [hx]; exact Nat.two_pow_pos j)
  rw [hx] at hlo hhi
  have h1 : fls64 x - 1 ≤ j := (Nat.pow_le_pow_iff_right (by omega)).mp hlo
  have h2 : j < fls64 x := (Nat.pow_lt_pow_iff_right (by omega)).mp hhi
  omega

/-- Against a power of two the test is exact: what it accepts fits. -/
theorem mul_lt_of_fls_two_pow {a b : UInt64} {j : Nat} (hb : b.toNat = 2 ^ j)
    (h : fls64 a + fls64 b - 1 ≤ 64) : a.toNat * b.toNat < 2 ^ 64 := by
  have hfb := fls64_two_pow hb
  rw [hfb] at h
  by_cases ha : a.toNat = 0
  · rw [ha, Nat.zero_mul]; exact Nat.two_pow_pos _
  -- `a < 2 ^ fls64 a` and `fls64 a + j ≤ 64`
  have hsa := (fls64_spec (x := a) (by omega)).2.2
  calc a.toNat * b.toNat < 2 ^ fls64 a * 2 ^ j := by rw [hb]; exact Nat.mul_lt_mul_of_pos_right hsa (Nat.two_pow_pos j)
    _ = 2 ^ (fls64 a + j) := (Nat.pow_add 2 _ _).symm
    _ ≤ 2 ^ 64 := Nat.pow_le_pow_right (by omega) (by omega)

/-- Below a multiple of `2 ^ j` that fits `n` bits there is room for a
remainder below `2 ^ j`: a carry from the low bits does not wrap. -/
theorem add_mul_two_pow_lt {v f j n : Nat} (hj : j ≤ n) (hv : v * 2 ^ j < 2 ^ n) (hf : f < 2 ^ j) :
    f + v * 2 ^ j < 2 ^ n := by
  have hsplit : 2 ^ n = 2 ^ (n - j) * 2 ^ j := by rw [← Nat.pow_add, Nat.sub_add_cancel hj]
  rw [hsplit] at hv ⊢
  have hlt : v < 2 ^ (n - j) := Nat.lt_of_mul_lt_mul_right hv
  calc f + v * 2 ^ j < 2 ^ j + v * 2 ^ j := by omega
    _ = (v + 1) * 2 ^ j := by rw [Nat.add_mul, Nat.one_mul, Nat.add_comm]
    _ ≤ 2 ^ (n - j) * 2 ^ j := Nat.mul_le_mul_right _ hlt

end CArith
