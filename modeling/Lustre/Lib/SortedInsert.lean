import Mathlib

/-! # Insertion into a list kept in increasing order of a key

A list kept in strictly increasing order of a key `k` takes a new element by
a walk from its tail: past the elements with a larger key, and in after the
first one with a smaller key, or at the head when there is none. An equal key
is a failure. Walking from the tail is cheap when the new element's key is
the largest so far, the common case when keys come from a counter.

`insertFromTail` is the walk over the list reversed; `insertSorted` is the
insertion. `insertSorted_spec`: into a list in increasing order of key that
holds no element of the new one's key, the insertion succeeds, adds exactly
that element and keeps the order.
-/

namespace SortedInsert

variable {α β : Type} [LinearOrder β] (k : α → β)

/-- The walk over `rev`, a list from its last element back: past the
elements whose key is above that of `x`, and in front of the first one whose
key is below it. The result is again from the last element back. -/
def insertFromTail (x : α) : List α → Option (List α)
  | [] => some [x]
  | y :: rest =>
    if k x = k y then none
    else if k x < k y then (insertFromTail x rest).map (y :: ·)
    else some (x :: y :: rest)

/-- Insert `x` into `l`, a list in increasing order of key, by a walk from
its tail. -/
def insertSorted (x : α) (l : List α) : Option (List α) :=
  (insertFromTail k x l.reverse).map List.reverse

/-- The walk over a list in decreasing order of key, with no key equal to
that of `x`, puts `x` in and keeps the order. -/
theorem insertFromTail_spec (x : α) :
    ∀ rev : List α, rev.Pairwise (fun a b => k b < k a) → (∀ y ∈ rev, k y ≠ k x) →
      ∃ r, insertFromTail k x rev = some r ∧ r.Perm (x :: rev) ∧ r.Pairwise (fun a b => k b < k a)
  | [], _, _ => ⟨[x], rfl, List.Perm.refl _, List.pairwise_singleton _ _⟩
  | y :: rest, hsorted, hne => by
    rw [List.pairwise_cons] at hsorted
    have hxy : k x ≠ k y := fun h => hne y List.mem_cons_self h.symm
    by_cases hlt : k x < k y
    · -- `x` goes further back, past `y`
      obtain ⟨r, hr, hperm, hr_sorted⟩ :=
        insertFromTail_spec x rest hsorted.2 (fun z hz => hne z (List.mem_cons_of_mem y hz))
      refine ⟨y :: r, ?_, ?_, ?_⟩
      · rw [insertFromTail, if_neg hxy, if_pos hlt, hr, Option.map_some]
      · exact (hperm.cons y).trans (List.Perm.swap x y rest)
      · refine List.pairwise_cons.mpr ⟨fun z hz => ?_, hr_sorted⟩
        rcases List.mem_cons.mp (hperm.subset hz) with rfl | hz
        · exact hlt
        · exact hsorted.1 z hz
    · -- `x` goes in front of `y`, whose key is below it
      have hgt : k y < k x := lt_of_le_of_ne (not_lt.mp hlt) (Ne.symm hxy)
      refine ⟨x :: y :: rest, ?_, List.Perm.refl _, ?_⟩
      · rw [insertFromTail, if_neg hxy, if_neg hlt]
      · refine List.pairwise_cons.mpr ⟨fun z hz => ?_, List.pairwise_cons.mpr hsorted⟩
        rcases List.mem_cons.mp hz with rfl | hz
        · exact hgt
        · exact (hsorted.1 z hz).trans hgt

/-- Inserting into a list in increasing order of key, with no key equal to
that of `x`, succeeds, adds `x` and keeps the order. -/
theorem insertSorted_spec (x : α) (l : List α) (hsorted : l.Pairwise (fun a b => k a < k b))
    (hne : ∀ y ∈ l, k y ≠ k x) :
    ∃ l', insertSorted k x l = some l' ∧ l'.Perm (x :: l) ∧ l'.Pairwise (fun a b => k a < k b) := by
  have hrev : l.reverse.Pairwise (fun a b => k b < k a) := List.pairwise_reverse.mpr hsorted
  obtain ⟨r, hr, hperm, hr_sorted⟩ :=
    insertFromTail_spec k x l.reverse hrev (fun y hy => hne y (List.mem_reverse.mp hy))
  refine ⟨r.reverse, by rw [insertSorted, hr, Option.map_some], ?_, List.pairwise_reverse.mpr hr_sorted⟩
  -- reversing back: `r.reverse ~ r ~ x :: l.reverse ~ x :: l`
  exact (List.reverse_perm r).trans (hperm.trans ((List.reverse_perm l).cons x))

end SortedInsert
