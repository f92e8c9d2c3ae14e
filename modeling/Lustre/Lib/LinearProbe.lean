import Mathlib

/-! # Linear probing

A scan of the slots of a table from a start slot, one slot at a time and
round from the last slot to the first, for a free slot. The slot it stops
at is free and in the table (`scan_spec`). From a slot of the table, with
as many steps as the table has slots, it stops whenever some slot is free
(`scan_isSome`). Nothing here refers to a particular program.
-/

namespace LinearProbe

variable {α : Type} (free : α → Bool) (l : List α)

/-- Scan `l` from slot `i` for a slot where `free` holds, for at most
`fuel` slots: `none` when the fuel runs out or a slot is outside `l`. -/
def scan : Nat → Nat → Option Nat
  | 0, _ => none
  | fuel + 1, i =>
    match l[i]? with
    | none => none
    | some a => if free a then some i else scan fuel ((i + 1) % l.length)

/-- The number of steps from slot `i` round to slot `e`. -/
def gap (i e n : Nat) : Nat := if i ≤ e then e - i else e + n - i

variable {free l}

/-- The slot a scan stops at is free and in the table. -/
theorem scan_spec {fuel i j : Nat} (h : scan free l fuel i = some j) : ∃ hj : j < l.length, free l[j] = true := by
  induction fuel generalizing i with
  | zero => cases h
  | succ fuel ih =>
    unfold scan at h
    cases hi : l[i]? with
    | none => simp [hi] at h
    | some a =>
      simp only [hi] at h
      by_cases ha : free a = true
      · rw [if_pos ha] at h
        cases h
        obtain ⟨hlt, rfl⟩ := List.getElem?_eq_some_iff.mp hi
        exact ⟨hlt, ha⟩
      · rw [if_neg ha] at h
        exact ih h

/-- One step from a slot of the table brings a free slot one step nearer. -/
theorem gap_succ {i e n : Nat} (hi : i < n) (he : e < n) (hne : i ≠ e) :
    (i + 1) % n < n ∧ gap ((i + 1) % n) e n + 1 = gap i e n := by
  unfold gap
  by_cases hlast : i + 1 < n
  · rw [Nat.mod_eq_of_lt hlast]
    refine ⟨hlast, ?_⟩
    split_ifs <;> omega
  · -- the scan goes round from the last slot to the first
    have hround : i + 1 = n := by omega
    rw [hround, Nat.mod_self]
    refine ⟨by omega, ?_⟩
    split_ifs <;> omega

theorem scan_isSome_of_gap {e : Nat} (he : e < l.length) (hfree : free l[e] = true) :
    ∀ fuel i, i < l.length → gap i e l.length < fuel → (scan free l fuel i).isSome
  | 0, _, _, hgap => absurd hgap (Nat.not_lt_zero _)
  | fuel + 1, i, hi, hgap => by
    unfold scan
    rw [List.getElem?_eq_getElem hi]
    by_cases hi' : free l[i] = true
    · simp [hi']
    · -- the slot is taken, so it is not the free one
      have hne : i ≠ e := fun h => hi' (by subst h; exact hfree)
      obtain ⟨hnext, hstep⟩ := gap_succ hi he hne
      simp only [hi', Bool.false_eq_true, if_false]
      exact scan_isSome_of_gap he hfree fuel _ hnext (by omega)

/-- From a slot of the table, a scan of as many steps as the table has
slots stops when some slot is free. -/
theorem scan_isSome {fuel i : Nat} (hi : i < l.length) (hfuel : l.length ≤ fuel) (hex : ∃ a ∈ l, free a = true) :
    (scan free l fuel i).isSome := by
  obtain ⟨a, ha, hfree⟩ := hex
  obtain ⟨e, he, rfl⟩ := List.getElem_of_mem ha
  apply scan_isSome_of_gap he hfree fuel i hi
  unfold gap
  split_ifs <;> omega

end LinearProbe
