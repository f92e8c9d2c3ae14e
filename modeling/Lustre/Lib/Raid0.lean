import Mathlib

/-! # RAID0 striping

A byte range striped RAID0 is cut into stripes of `size` bytes, dealt
round-robin to `count` objects: a row of `width = size * count` bytes holds
one stripe of each. A byte `x` lands on object `stripe x`, at offset
`objOff x` in it; `fileOff k o` is the byte at offset `o` of object `k`.

* The two directions are inverse (`fileOff_stripe_objOff`, `stripe_fileOff`,
  `objOff_fileOff`): striping is a bijection between bytes and pairs of an
  object and an offset in it.
* The offset of a byte in its object is the number of bytes of that object
  before it (`objOff_eq_count`), and the number of bytes of object `k` below
  `y` has a closed form (`count_stripe`).
* So the offsets in object `k` of the bytes of `[a, b)` are exactly the
  numbers from the count below `a` to the count below `b`
  (`objOff_mem_iff`): a range of the file is a range of each object.

Nothing here refers to a particular program.
-/

namespace Raid0

/-- A count below `n` depends only on the predicate below `n`. -/
theorem count_congr_of_lt {p q : ℕ → Prop} [DecidablePred p] [DecidablePred q] :
    ∀ {n : ℕ}, (∀ x < n, (p x ↔ q x)) → Nat.count p n = Nat.count q n
  | 0, _ => by simp
  | n + 1, h => by
    rw [Nat.count_succ, Nat.count_succ, count_congr_of_lt fun x hx => h x (by omega)]
    by_cases hp : p n
    · rw [if_pos hp, if_pos ((h n (by omega)).mp hp)]
    · rw [if_neg hp, if_neg fun hq => hp ((h n (by omega)).mpr hq)]

/-- A range holds a point of `p` exactly when the count of `p` grows across
it. -/
theorem exists_iff_count_lt {p : ℕ → Prop} [DecidablePred p] (a b : ℕ) :
    (∃ x, a ≤ x ∧ x < b ∧ p x) ↔ Nat.count p a < Nat.count p b := by
  constructor
  · rintro ⟨x, hax, hxb, hx⟩
    exact lt_of_le_of_lt (Nat.count_monotone p hax) (Nat.count_strict_mono hx hxb)
  · intro h
    obtain ⟨x, ⟨hax, hxb⟩, hx⟩ := Nat.exists_of_count_lt_count h
    exact ⟨x, hax, hxb, hx⟩

/-- Stripes of `size` bytes dealt round-robin to `count` objects. -/
structure Layout where
  size : ℕ
  count : ℕ
  size_pos : 0 < size
  count_pos : 0 < count

namespace Layout

variable (l : Layout)

/-- The bytes of one row, a stripe of each object. -/
def width : ℕ := l.size * l.count

/-- The object a byte lands on. -/
def stripe (x : ℕ) : ℕ := x % l.width / l.size

/-- The offset of a byte in its object. -/
def objOff (x : ℕ) : ℕ := x / l.width * l.size + x % l.width % l.size

/-- The byte at offset `o` of object `k`. -/
def fileOff (k o : ℕ) : ℕ := o / l.size * l.width + k * l.size + o % l.size

variable {l}

theorem width_pos : 0 < l.width := Nat.mul_pos l.size_pos l.count_pos

/-- A stripe of object `k < count` ends inside its row. -/
theorem stripe_end_le {k : ℕ} (hk : k < l.count) : k * l.size + l.size ≤ l.width := by
  have : (k + 1) * l.size ≤ l.count * l.size := Nat.mul_le_mul_right _ hk
  rw [width, Nat.mul_comm l.size]
  rw [Nat.succ_mul] at this
  exact this

theorem stripe_lt (x : ℕ) : l.stripe x < l.count := by
  unfold stripe
  rw [Nat.div_lt_iff_lt_mul l.size_pos, Nat.mul_comm]
  exact Nat.mod_lt x width_pos

/-- Every row looks the same. -/
theorem stripe_add_mul_width (q x : ℕ) : l.stripe (q * l.width + x) = l.stripe x := by
  unfold stripe
  rw [Nat.mul_comm, Nat.mul_add_mod]

/-- The position of the byte at offset `o` of object `k` inside its row. -/
theorem fileOff_mod_width {k : ℕ} (hk : k < l.count) (o : ℕ) :
    l.fileOff k o % l.width = k * l.size + o % l.size := by
  have hlt : k * l.size + o % l.size < l.width := by
    have := Nat.mod_lt o l.size_pos
    have := stripe_end_le hk
    omega
  rw [fileOff, Nat.add_assoc, Nat.mul_comm, Nat.mul_add_mod, Nat.mod_eq_of_lt hlt]

theorem fileOff_div_width {k : ℕ} (hk : k < l.count) (o : ℕ) : l.fileOff k o / l.width = o / l.size := by
  have hlt : k * l.size + o % l.size < l.width := by
    have := Nat.mod_lt o l.size_pos
    have := stripe_end_le hk
    omega
  rw [fileOff, Nat.add_assoc, Nat.add_comm, Nat.add_mul_div_right _ _ width_pos, Nat.div_eq_of_lt hlt, Nat.zero_add]

theorem stripe_fileOff {k : ℕ} (hk : k < l.count) (o : ℕ) : l.stripe (l.fileOff k o) = k := by
  rw [stripe, fileOff_mod_width hk, Nat.mul_comm, Nat.mul_add_div l.size_pos, Nat.div_eq_of_lt (Nat.mod_lt o l.size_pos),
    Nat.add_zero]

theorem objOff_fileOff {k : ℕ} (hk : k < l.count) (o : ℕ) : l.objOff (l.fileOff k o) = o := by
  rw [objOff, fileOff_div_width hk, fileOff_mod_width hk, Nat.mul_comm k, Nat.mul_add_mod, Nat.mod_mod,
    Nat.mul_comm, Nat.div_add_mod]

theorem fileOff_stripe_objOff (x : ℕ) : l.fileOff (l.stripe x) (l.objOff x) = x := by
  -- the offset in the object splits back into the row and the place in the stripe
  have hdiv : l.objOff x / l.size = x / l.width := by
    rw [objOff, Nat.mul_comm, Nat.mul_add_div l.size_pos, Nat.div_eq_of_lt (Nat.mod_lt _ l.size_pos), Nat.add_zero]
  have hmod : l.objOff x % l.size = x % l.width % l.size := by
    rw [objOff, Nat.mul_comm, Nat.mul_add_mod, Nat.mod_mod]
  rw [fileOff, hdiv, hmod, stripe, Nat.add_assoc, Nat.div_add_mod' (x % l.width) l.size, Nat.div_add_mod']

/-! ## Counting the bytes of one object -/

/-- The bytes of object `k` in the first `r` bytes of a row. -/
theorem count_stripe_of_le {k : ℕ} (hk : k < l.count) :
    ∀ r, r ≤ l.width → Nat.count (l.stripe · = k) r = min l.size (r - k * l.size)
  | 0, _ => by simp
  | r + 1, hr => by
    -- the byte `r` of the first row is on object `r / size`
    have hstripe : l.stripe r = r / l.size := by rw [stripe, Nat.mod_eq_of_lt (by omega)]
    have hon : r / l.size = k ↔ k * l.size ≤ r ∧ r < k * l.size + l.size := by
      rw [Nat.div_eq_iff l.size_pos]
      have := l.size_pos
      omega
    rw [Nat.count_succ, count_stripe_of_le hk r (by omega), hstripe]
    by_cases h : k * l.size ≤ r ∧ r < k * l.size + l.size
    · rw [if_pos (hon.mpr h)]
      omega
    · rw [if_neg (fun h' => h (hon.mp h'))]
      omega

theorem count_stripe_mul {k : ℕ} (hk : k < l.count) : ∀ q, Nat.count (l.stripe · = k) (q * l.width) = q * l.size
  | 0 => by simp
  | q + 1 => by
    have hrow := count_stripe_of_le hk l.width le_rfl
    have hmin : min l.size (l.width - k * l.size) = l.size := by
      have := stripe_end_le hk
      omega
    rw [Nat.succ_mul, Nat.count_add, count_stripe_mul hk q, Nat.succ_mul]
    -- the next row has as many bytes of object `k` as the first
    simp only [stripe_add_mul_width]
    rw [hrow, hmin]

/-- The bytes of object `k` below `y`: a stripe for each full row, and what
the last row holds of its stripe. -/
theorem count_stripe {k : ℕ} (hk : k < l.count) (y : ℕ) :
    Nat.count (l.stripe · = k) y = y / l.width * l.size + min l.size (y % l.width - k * l.size) := by
  conv_lhs => rw [← Nat.div_add_mod y l.width, Nat.mul_comm]
  rw [Nat.count_add, count_stripe_mul hk]
  simp only [stripe_add_mul_width]
  rw [count_stripe_of_le hk _ (Nat.mod_lt y width_pos).le]

/-- The offset of a byte in its object is the number of bytes of that object
before it. -/
theorem objOff_eq_count (x : ℕ) : l.objOff x = Nat.count (l.stripe · = l.stripe x) x := by
  rw [count_stripe (stripe_lt x), objOff]
  -- inside the row, the byte is past the start of its stripe by less than a stripe
  have h1 : l.stripe x * l.size ≤ x % l.width := Nat.div_mul_le_self _ _
  have h2 : x % l.width - l.stripe x * l.size = x % l.width % l.size := by
    have := Nat.div_add_mod' (x % l.width) l.size
    unfold stripe
    omega
  rw [h2, min_eq_right (Nat.mod_lt _ l.size_pos).le]

/-- The offsets in object `k` of the bytes of `[a, b)` are exactly the numbers
from the count of its bytes below `a` up to, not including, the count below
`b`. -/
theorem objOff_mem_iff {k : ℕ} (hk : k < l.count) (a b o : ℕ) :
    (∃ x, a ≤ x ∧ x < b ∧ l.stripe x = k ∧ l.objOff x = o) ↔
      Nat.count (l.stripe · = k) a ≤ o ∧ o < Nat.count (l.stripe · = k) b := by
  constructor
  · rintro ⟨x, hax, hxb, hx, rfl⟩
    rw [objOff_eq_count, hx]
    exact ⟨Nat.count_monotone _ hax, Nat.count_strict_mono hx hxb⟩
  · rintro ⟨hlo, hhi⟩
    -- the byte at offset `o` of object `k` has `o` bytes of its object before it
    have hx : l.stripe (l.fileOff k o) = k := stripe_fileOff hk o
    have hcount : Nat.count (l.stripe · = k) (l.fileOff k o) = o := by
      have := objOff_eq_count (l := l) (l.fileOff k o)
      rw [hx, objOff_fileOff hk] at this
      exact this.symm
    refine ⟨l.fileOff k o, ?_, ?_, hx, objOff_fileOff hk o⟩
    · by_contra hlt
      have := Nat.count_strict_mono (p := (l.stripe · = k)) hx (Nat.lt_of_not_le hlt)
      omega
    · by_contra hle
      have := Nat.count_monotone (l.stripe · = k) (Nat.le_of_not_lt hle)
      omega

end Layout

end Raid0
