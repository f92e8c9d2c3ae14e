import Mathlib

/-! # Holders and waiters

A counter of credits hands a resource to each of its holders and puts the
clients it cannot serve on a wait queue. Two kinds of facts carry the
proofs about such counters. Counts over a finite type of clients, when one
client changes: the sum of a function that changed at one point
(`sum_add_of_eq_off`) and the number of clients where a predicate holds
(`card_filter_add_of_eq_off`), and what they hold in all when one of them
holds something else (`sum_update_add`). And the discipline of a queue served in
order: it loses clients at its front and gains them at its back only
(`Fifo`), which any sequence of such changes keeps (`Fifo.trans`). Nothing
here refers to a particular program.
-/

namespace Waiters

open Finset

section Counts

variable {α : Type} [DecidableEq α]

/-- Two functions that agree on `s` away from `a`: their sums over `s`
differ by what they give `a`. -/
theorem sum_add_of_eq_off {s : Finset α} {f g : α → Nat} (a : α) (h : ∀ x ∈ s, x ≠ a → f x = g x) :
    ∑ x ∈ s, g x + (if a ∈ s then f a else 0) = ∑ x ∈ s, f x + (if a ∈ s then g a else 0) := by
  by_cases ha : a ∈ s
  · rw [if_pos ha, if_pos ha, ← add_sum_erase s f ha, ← add_sum_erase s g ha]
    -- away from `a` the two sums are the same
    have hrest : ∑ x ∈ s.erase a, g x = ∑ x ∈ s.erase a, f x :=
      sum_congr rfl fun x hx => (h x (mem_of_mem_erase hx) (ne_of_mem_erase hx)).symm
    rw [hrest]
    omega
  · rw [if_neg ha, if_neg ha, Nat.add_zero, Nat.add_zero]
    exact sum_congr rfl fun x hx => (h x hx fun hxa => ha (hxa ▸ hx)).symm

variable [Fintype α]

/-- What the clients hold in all, when one of them, `a`, now holds `b`. -/
theorem sum_update_add {M : Type} [AddCommMonoid M] (f : α → M) (a : α) (b : M) :
    ∑ x, Function.update f a b x + f a = ∑ x, f x + b := by
  rw [sum_update_of_mem (mem_univ a), ← add_sum_erase univ f (mem_univ a), sdiff_singleton_eq_erase]
  ac_rfl

/-- The clients where `q` holds against those where `p` holds, when the two
differ at `a` only. -/
theorem card_filter_add_of_eq_off {p q : α → Prop} [DecidablePred p] [DecidablePred q] (a : α)
    (h : ∀ x, x ≠ a → (p x ↔ q x)) :
    (univ.filter q).card + (if p a then 1 else 0) = (univ.filter p).card + (if q a then 1 else 0) := by
  have hsum := sum_add_of_eq_off (s := univ) (f := fun x => if p x then 1 else 0)
    (g := fun x => if q x then 1 else 0) a fun x _ hx => if_congr (h x hx) rfl rfl
  simp only [mem_univ, if_true] at hsum
  rw [card_filter, card_filter]
  exact hsum

end Counts

section Queue

variable {α : Type}

/-- The queue `q` became `q'` by serving clients from its front and adding
clients at its back. -/
def Fifo (q q' : List α) : Prop := ∃ k new, q' = q.drop k ++ new

theorem Fifo.refl (q : List α) : Fifo q q := ⟨0, [], by rw [List.drop_zero, List.append_nil]⟩

/-- Serving in order, then serving in order again, is serving in order. -/
theorem Fifo.trans {q q' q'' : List α} (h : Fifo q q') (h' : Fifo q' q'') : Fifo q q'' := by
  obtain ⟨k, new, rfl⟩ := h
  obtain ⟨k', new', rfl⟩ := h'
  -- the second step serves what is left of `q`, then the clients the first one added
  refine ⟨k + k', new.drop (k' - (q.drop k).length) ++ new', ?_⟩
  rw [List.drop_append, List.drop_drop, List.append_assoc]

theorem Fifo.push (q : List α) (a : α) : Fifo q (q ++ [a]) := ⟨0, [a], by rw [List.drop_zero]⟩

end Queue

end Waiters
