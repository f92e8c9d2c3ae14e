import Mathlib

/-! # Two-level arrays

A table of pointers to arrays of `P` entries, where an entry of the table
may be missing: entry `k` of the whole is entry `k % P` of array `k / P`
(`flat`). C code walks such a table with a cursor `(p, g)` that steps by
`if (++g == P) { p++; g = 0; }` (`advance`) or back by
`if (g-- == 0) { p--; g = P - 1; }`; read at the cursor, either walk is a
walk over the flat index (`advance_cursor`, `cursor_pred_of_mod_eq_zero`).
A read at `(p, g)` faults when `p` is past the table or the array is
missing (`read`), and a write there is a point update of the flat view
(`flat_setSlot`). The entries at the first `n` indices make the stack the
table holds (`stackOf`), which adds up over consecutive ranges
(`stackOf_add`). Nothing here refers to a particular program.
-/

namespace PagedArray

variable {α : Type}

/-- A table of optional arrays, each an optional entry per index. -/
abbrev Table (α : Type) := Nat → Option (Nat → Option α)

/-- Entry `k` of the whole: entry `k % P` of array `k / P`, nothing where
that array is missing. -/
def flat (P : Nat) (t : Table α) (k : Nat) : Option α :=
  (t (k / P)).bind fun a => a (k % P)

/-- The cursor at flat index `k`. -/
def cursor (P k : Nat) : Nat × Nat := (k / P, k % P)

/-- The cursor step `if (++g == P) { p++; g = 0; }`. -/
def advance (P : Nat) (c : Nat × Nat) : Nat × Nat :=
  if c.2 + 1 = P then (c.1 + 1, 0) else (c.1, c.2 + 1)

/-- `t[p][g]` in a table of `M` entries: nothing (a fault) past the table or
where the array is missing, else the entry. -/
def read (M : Nat) (t : Table α) (p g : Nat) : Option (Option α) :=
  if p < M then (t p).map fun a => a g else none

/-- `t[p][g] = x`, where array `p` is there. -/
def setSlot (t : Table α) (p g : Nat) (x : Option α) : Table α :=
  Function.update t p ((t p).map fun a => Function.update a g x)

/-- The arrays hold nothing at index `P` or beyond. -/
def Narrow (P : Nat) (t : Table α) : Prop :=
  ∀ i a, t i = some a → ∀ g, P ≤ g → a g = none

/-- The entries at the first `n` flat indices. -/
def stackOf (f : Nat → Option α) (n : Nat) : Multiset α :=
  ((List.range n).filterMap f : List α)

section Cursor

variable {P : Nat}

theorem cursor_eq_iff (hP : 0 < P) {k p g : Nat} : cursor P k = (p, g) ↔ g + P * p = k ∧ g < P := by
  rw [cursor, Prod.mk.injEq]
  exact Nat.div_mod_unique hP

theorem advance_cursor (hP : 0 < P) (k : Nat) : advance P (cursor P k) = cursor P (k + 1) := by
  have hk := Nat.mod_add_div k P
  have hlt := Nat.mod_lt k hP
  unfold advance
  split_ifs with h
  · refine ((cursor_eq_iff hP).2 ⟨?_, hP⟩).symm
    simp only [cursor] at h ⊢
    ring_nf
    omega
  · refine ((cursor_eq_iff hP).2 ⟨?_, ?_⟩).symm
    · simp only [cursor]
      omega
    · simp only [cursor] at h ⊢
      omega

/-- Stepping back from the start of an array lands on the last entry of the
one before. -/
theorem cursor_pred_of_mod_eq_zero (hP : 0 < P) {m : Nat} (hm : 0 < m) (h : m % P = 0) :
    cursor P (m - 1) = (m / P - 1, P - 1) := by
  have hk := Nat.mod_add_div m P
  have hq : 0 < m / P := Nat.div_pos (Nat.le_of_dvd hm (Nat.dvd_of_mod_eq_zero h)) hP
  obtain ⟨q, hq'⟩ : ∃ q, m / P = q + 1 := ⟨m / P - 1, by omega⟩
  rw [h, hq', Nat.mul_succ] at hk
  rw [cursor_eq_iff hP, hq', Nat.add_sub_cancel]
  omega

theorem cursor_pred_of_mod_ne_zero (hP : 0 < P) {m : Nat} (h : m % P ≠ 0) :
    cursor P (m - 1) = (m / P, m % P - 1) := by
  have hk := Nat.mod_add_div m P
  have hlt := Nat.mod_lt m hP
  rw [cursor_eq_iff hP]
  constructor <;> omega

theorem cursor_eq_zero_iff {m : Nat} : m / P = 0 ∧ m % P = 0 ↔ m = 0 := by
  have hk := Nat.mod_add_div m P
  constructor
  · rintro ⟨h1, h2⟩
    rw [h1, h2] at hk
    omega
  · rintro rfl
    simp

end Cursor

section Slots

variable {P : Nat}

/-- Entry `g` of array `i` is flat index `i * P + g`. -/
theorem flat_mul_add (hP : 0 < P) (t : Table α) (i : Nat) {g : Nat} (hg : g < P) :
    flat P t (i * P + g) = (t i).bind fun a => a g := by
  have hd : (i * P + g) / P = i := by
    rw [Nat.add_comm, Nat.add_mul_div_right _ _ hP, Nat.div_eq_of_lt hg, Nat.zero_add]
  have hm : (i * P + g) % P = g := by
    rw [Nat.add_comm, Nat.add_mul_mod_self_right, Nat.mod_eq_of_lt hg]
  rw [flat, hd, hm]

/-- A table whose arrays `cur` to `cur + n - 1` are those of `nt` from array
`np` on: read flat, the indices in those arrays read `nt` from array `np`,
and the others read `t`. -/
theorem flat_splice (hP : 0 < P) (t nt : Table α) (cur n np k : Nat) :
    flat P (fun i => if cur ≤ i ∧ i < cur + n then nt (np + (i - cur)) else t i) k =
      if cur * P ≤ k ∧ k < (cur + n) * P then flat P nt (np * P + (k - cur * P)) else flat P t k := by
  have hlo : cur ≤ k / P ↔ cur * P ≤ k := Nat.le_div_iff_mul_le hP
  have hhi : k / P < cur + n ↔ k < (cur + n) * P := Nat.div_lt_iff_lt_mul hP
  by_cases hin : cur * P ≤ k ∧ k < (cur + n) * P
  · -- flat index `k` is entry `k % P` of array `np + (k / P - cur)` of `nt`
    have hk := Nat.mod_add_div' k P
    have hcur : cur * P ≤ k / P * P := Nat.mul_le_mul_right P (hlo.2 hin.1)
    have hshift : np * P + (k - cur * P) = (np + (k / P - cur)) * P + k % P := by
      rw [Nat.add_mul, Nat.sub_mul]
      omega
    rw [if_pos hin, hshift, flat_mul_add hP nt _ (Nat.mod_lt k hP)]
    dsimp only [flat]
    rw [if_pos ⟨hlo.2 hin.1, hhi.2 hin.2⟩]
  · rw [if_neg hin]
    dsimp only [flat]
    rw [if_neg fun h => hin ⟨hlo.1 h.1, hhi.1 h.2⟩]

theorem read_cursor {M : Nat} {t : Table α} {k : Nat} (hM : k / P < M) (ha : (t (k / P)).isSome) :
    read M t (k / P) (k % P) = some (flat P t k) := by
  obtain ⟨a, hta⟩ := Option.isSome_iff_exists.1 ha
  simp only [read, if_pos hM, hta, Option.map_some, flat, Option.bind_some]

/-- Two flat indices with the same array and the same entry in it are one. -/
theorem eq_of_div_of_mod {k k' : Nat} (hd : k / P = k' / P) (hm : k % P = k' % P) : k = k' := by
  rw [← Nat.mod_add_div k P, ← Nat.mod_add_div k' P, hd, hm]

theorem flat_update (t : Table α) (p : Nat) (v : Option (Nat → Option α)) (k : Nat) :
    flat P (Function.update t p v) k = if k / P = p then v.bind (fun a => a (k % P)) else flat P t k := by
  unfold flat
  by_cases hk : k / P = p
  · rw [if_pos hk, hk, Function.update_self]
  · rw [if_neg hk, Function.update_of_ne hk]

/-- A write at the cursor of `k0`, into an array that is there, changes the
flat view at `k0` only. -/
theorem flat_setSlot {t : Table α} {k0 : Nat} (ha : (t (k0 / P)).isSome) (x : Option α) (k : Nat) :
    flat P (setSlot t (k0 / P) (k0 % P) x) k = if k = k0 then x else flat P t k := by
  obtain ⟨a, hta⟩ := Option.isSome_iff_exists.1 ha
  rw [setSlot, flat_update, hta, Option.map_some, Option.bind_some]
  by_cases hd : k / P = k0 / P
  · rw [if_pos hd]
    by_cases hm : k % P = k0 % P
    · rw [hm, Function.update_self, if_pos (eq_of_div_of_mod hd hm)]
    · rw [Function.update_of_ne hm, if_neg (fun h => hm (by rw [h])), flat, hd, hta, Option.bind_some]
  · rw [if_neg hd, if_neg (fun h => hd (by rw [h]))]

@[simp] theorem setSlot_isSome (t : Table α) (p g : Nat) (x : Option α) (i : Nat) :
    (setSlot t p g x i).isSome = (t i).isSome := by
  unfold setSlot
  by_cases hi : i = p
  · subst hi
    rw [Function.update_self, Option.isSome_map]
  · rw [Function.update_of_ne hi]

theorem Narrow.setSlot {t : Table α} (hn : Narrow P t) {p g : Nat} (hg : g < P) (x : Option α) :
    Narrow P (setSlot t p g x) := by
  intro i a hia g' hg'
  unfold PagedArray.setSlot at hia
  by_cases hi : i = p
  · subst hi
    rw [Function.update_self] at hia
    obtain ⟨a', ha', rfl⟩ := Option.map_eq_some_iff.1 hia
    rw [Function.update_of_ne (by omega)]
    exact hn i a' ha' g' hg'
  · rw [Function.update_of_ne hi] at hia
    exact hn i a hia g' hg'

theorem Narrow.update {t : Table α} (hn : Narrow P t) {p : Nat} {v : Option (Nat → Option α)}
    (hv : ∀ a, v = some a → ∀ g, P ≤ g → a g = none) : Narrow P (Function.update t p v) := by
  intro i a hia
  by_cases hi : i = p
  · subst hi
    rw [Function.update_self] at hia
    exact hv a hia
  · rw [Function.update_of_ne hi] at hia
    exact hn i a hia

end Slots

section Stack

theorem stackOf_congr {f g : Nat → Option α} {n : Nat} (h : ∀ k < n, f k = g k) : stackOf f n = stackOf g n := by
  rw [stackOf, stackOf, List.filterMap_congr fun k hk => h k (List.mem_range.1 hk)]

theorem stackOf_add (f : Nat → Option α) (a b : Nat) :
    stackOf f (a + b) = stackOf f a + stackOf (fun j => f (a + j)) b := by
  rw [stackOf, List.range_add, List.filterMap_append, List.filterMap_map, ← Multiset.coe_add]
  rfl

@[simp] theorem stackOf_zero (f : Nat → Option α) : stackOf f 0 = 0 := rfl

theorem card_stackOf {f : Nat → Option α} {n : Nat} (h : ∀ k < n, (f k).isSome) :
    Multiset.card (stackOf f n) = n := by
  induction n with
  | zero => rfl
  | succ n ih =>
    obtain ⟨x, hx⟩ := Option.isSome_iff_exists.1 (h n (Nat.lt_succ_self n))
    rw [stackOf_add, Multiset.card_add, ih fun k hk => h k (by omega)]
    simp [stackOf, hx]

/-- A list read from the front: its first `n` elements. -/
theorem stackOf_getElem (l : List α) (n : Nat) : stackOf (fun j => l[j]?) n = (l.take n : Multiset α) := by
  induction n with
  | zero => rfl
  | succ n ih =>
    rw [stackOf_add, ih, List.take_add_one, ← Multiset.coe_add]
    rfl

/-- A list read from the back: its last `n` elements. -/
theorem stackOf_getElem_rev (l : List α) {n : Nat} (hn : n ≤ l.length) :
    stackOf (fun j => l[l.length - 1 - j]?) n = (l.drop (l.length - n) : Multiset α) := by
  induction n with
  | zero => simp
  | succ n ih =>
    have hlt : l.length - (n + 1) < l.length := by omega
    -- the next element from the back goes on the front of the suffix
    have hone : stackOf (fun j => l[l.length - 1 - (n + j)]?) 1 = {l[l.length - (n + 1)]} := by
      rw [stackOf, List.range_one, List.filterMap_cons, List.filterMap_nil, Nat.add_zero,
        show l.length - 1 - n = l.length - (n + 1) by omega, List.getElem?_eq_getElem hlt]
      rfl
    rw [stackOf_add, ih (by omega), hone, List.drop_eq_getElem_cons hlt,
      show l.length - (n + 1) + 1 = l.length - n by omega, ← Multiset.cons_coe, Multiset.add_comm,
      Multiset.singleton_add]

end Stack

end PagedArray
