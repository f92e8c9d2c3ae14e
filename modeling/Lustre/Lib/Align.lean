import Mathlib

/-! # Aligned blocks

Numbers cut into blocks of a positive size `p`: block `c` is
`[c * p, c * p + p)`, and `x / p` is the block of `x`. These are the facts
about rounding down, rounding up and aligned windows that page, chunk and
RPC arithmetic rests on, stated so that `omega` can take over once the
block products are named.
-/

namespace Align

variable {p : Nat}

/-- The block of `x` brackets it. -/
theorem div_mul_le_lt (hp : 0 < p) (x : Nat) : x / p * p ≤ x ∧ x < x / p * p + p :=
  ⟨Nat.div_mul_le_self x p, Nat.lt_div_mul_add hp⟩

/-- A number in block `c` has block `c`. -/
theorem div_eq_of_mem {x c : Nat} (h1 : c * p ≤ x) (h2 : x < c * p + p) : x / p = c :=
  Nat.div_eq_of_lt_le h1 (by rw [Nat.succ_mul]; exact h2)

/-- Blocks are ordered as their numbers are. -/
theorem div_le_div {x y : Nat} (h : x ≤ y) : x / p ≤ y / p := Nat.div_le_div_right h

/-- An aligned number starts its block. -/
theorem eq_div_mul_of_mod {x : Nat} (h : x % p = 0) : x = x / p * p := by
  have := Nat.div_add_mod x p
  rw [h, Nat.add_zero, Nat.mul_comm] at this
  exact this.symm

/-- A number whose successor is aligned ends its block. -/
theorem succ_eq_of_mod (hp : 0 < p) {x : Nat} (h : (x + 1) % p = 0) : x + 1 = x / p * p + p := by
  have hx := div_mul_le_lt hp x
  have hs := eq_div_mul_of_mod h
  -- `x + 1` is aligned and in block `x / p` or the next one
  have hb : (x + 1) / p = x / p + 1 := by
    rcases Nat.lt_or_ge (x + 1) (x / p * p + p) with hlt | hge
    · have : (x + 1) / p = x / p := div_eq_of_mem (by omega) hlt
      rw [this] at hs
      omega
    · exact div_eq_of_mem (by rw [Nat.succ_mul]; omega) (by rw [Nat.succ_mul]; omega)
  rw [hb, Nat.succ_mul] at hs
  exact hs

/-- Strictly inside a block, a number is not aligned. -/
theorem mod_ne_zero_of_lt {x c : Nat} (h1 : c * p < x) (h2 : x < c * p + p) : x % p ≠ 0 := by
  intro h
  have hs := eq_div_mul_of_mod h
  rw [div_eq_of_mem (Nat.le_of_lt h1) h2] at hs
  omega

/-- The start of block `x / p` is aligned. -/
theorem div_mul_mod (x : Nat) : x / p * p % p = 0 := Nat.mul_mod_left _ _

/-- An aligned number at most `x` is at most the start of `x`'s block. -/
theorem le_div_mul_of_mod {w x : Nat} (hw : w % p = 0) (h : w ≤ x) : w ≤ x / p * p := by
  rw [eq_div_mul_of_mod hw]
  exact Nat.mul_le_mul_right p (div_le_div h)

/-- The start of the window of size `m` that holds `x`. -/
theorem sub_mod_eq (x m : Nat) : x - x % m = x / m * m := by
  have := Nat.div_add_mod x m
  rw [Nat.mul_comm] at this
  omega

/-- Windows whose size is a multiple of `p` start aligned. -/
theorem window_start_mod {x m : Nat} (hm : m % p = 0) : (x - x % m) % p = 0 := by
  rw [sub_mod_eq, eq_div_mul_of_mod hm, ← Nat.mul_assoc]
  exact Nat.mul_mod_left _ _

/-- ... and end just before an aligned number. -/
theorem window_end_mod {x m : Nat} (hm : m % p = 0) : (x - x % m + m) % p = 0 := by
  rw [Nat.add_mod, window_start_mod hm, hm, Nat.zero_add, Nat.zero_mod]

/-- The window of size `m > 0` that holds `x` reaches past it. -/
theorem lt_window_end {x m : Nat} (hm : 0 < m) : x < x - x % m + m := by
  have := Nat.mod_lt x hm
  have := Nat.mod_le x m
  omega

/-- Below block `c`, a number is below its start. -/
theorem lt_mul_of_div_lt (hp : 0 < p) {x c : Nat} (h : x / p < c) : x < c * p := Nat.lt_mul_of_div_lt h hp

/-- Past block `c`, a number is past its end. -/
theorem add_le_of_lt_div (hp : 0 < p) {x c : Nat} (h : c < x / p) : c * p + p ≤ x := by
  have := (Nat.le_div_iff_mul_le hp).mp h
  rw [Nat.succ_mul] at this
  exact this

/-- At or below block `c`, a number is below the end of block `c`. -/
theorem lt_of_div_le (hp : 0 < p) {x c : Nat} (h : x / p ≤ c) : x < c * p + p := by
  have hx := div_mul_le_lt hp x
  have := Nat.mul_le_mul_right p h
  omega

end Align
