import Mathlib

/-! # Queues of conflicting requests

A queue holds requests, each with a ticket from a counter that only grows, and
some requests conflict with others (a symmetric relation). A request may go
ahead once no request with a smaller ticket that conflicts with it is queued;
`ahead q x` counts those requests. A lock manager that keeps this count with
each request, adding to it when the request is queued and taking from it when
one of them leaves, knows when each may go ahead without scanning the queue
again.

This module proves what such a count obeys: a request queued after all others
is ahead of none of them, and its count is the number of them it conflicts
with; a request that leaves is taken off the counts of exactly the later ones
it conflicts with; rewriting the requests without changing their tickets or
conflicts changes no count; and two requests with nothing ahead do not
conflict, which is the mutual exclusion such a queue is for.
-/

namespace ConflictQueue

variable {α : Type*} (conflict : α → α → Bool) (ticket : α → Nat)

/-- The requests of `q` with a smaller ticket than `x` that conflict with it. -/
def ahead (q : List α) (x : α) : Nat :=
  q.countP fun y => conflict y x && decide (ticket y < ticket x)

variable {conflict ticket}

@[simp] theorem ahead_nil (x : α) : ahead conflict ticket [] x = 0 := rfl

theorem ahead_append (q₁ q₂ : List α) (x : α) :
    ahead conflict ticket (q₁ ++ q₂) x = ahead conflict ticket q₁ x + ahead conflict ticket q₂ x :=
  List.countP_append

theorem ahead_cons (y : α) (q : List α) (x : α) :
    ahead conflict ticket (y :: q) x =
      ahead conflict ticket q x + if conflict y x && decide (ticket y < ticket x) then 1 else 0 :=
  List.countP_cons

theorem ahead_perm {q₁ q₂ : List α} (h : q₁.Perm q₂) (x : α) :
    ahead conflict ticket q₁ x = ahead conflict ticket q₂ x :=
  h.countP_eq _

/-- Nothing is ahead of `x` exactly when every request it conflicts with has
a ticket at least its own. -/
theorem ahead_eq_zero_iff {q : List α} {x : α} :
    ahead conflict ticket q x = 0 ↔ ∀ y ∈ q, conflict y x = true → ticket x ≤ ticket y := by
  unfold ahead
  rw [List.countP_eq_zero]
  constructor
  · intro h y hy hc
    have := h y hy
    simp only [hc, Bool.true_and, decide_eq_true_eq] at this
    omega
  · intro h y hy hyx
    simp only [Bool.and_eq_true, decide_eq_true_eq] at hyx
    have := h y hy hyx.1
    omega

/-- A request queued later is ahead of no earlier one. -/
theorem ahead_cons_of_lt {y x : α} (h : ticket x < ticket y) (q : List α) :
    ahead conflict ticket (y :: q) x = ahead conflict ticket q x := by
  rw [ahead_cons, if_neg (by simp only [Bool.and_eq_true, decide_eq_true_eq, not_and]; intro; omega)]
  rfl

/-- The count of a request queued after all of `q` is the number of them it
conflicts with. -/
theorem ahead_of_forall_lt {q : List α} {x : α} (h : ∀ y ∈ q, ticket y < ticket x) :
    ahead conflict ticket q x = q.countP fun y => conflict y x := by
  unfold ahead
  refine List.countP_congr fun y hy => ?_
  simp only [Bool.and_eq_true, decide_eq_true_eq, and_iff_left_iff_imp]
  exact fun _ => h y hy

/-- Rewriting requests without changing their tickets or conflicts changes no
count. -/
theorem ahead_map (f : α → α) {q : List α} {x : α}
    (hc : ∀ y ∈ q, conflict (f y) (f x) = conflict y x) (ht : ∀ y, ticket (f y) = ticket y) :
    ahead conflict ticket (q.map f) (f x) = ahead conflict ticket q x := by
  unfold ahead
  rw [List.countP_map]
  refine List.countP_congr fun y hy => ?_
  simp only [Function.comp_apply, hc y hy, ht]

/-- A request `y` that leaves is taken off the count of `x` when it conflicts
with `x` and was queued before it. -/
theorem ahead_remove (pre post : List α) (y x : α) :
    ahead conflict ticket (pre ++ post) x + (if conflict y x && decide (ticket y < ticket x) then 1 else 0) =
      ahead conflict ticket (pre ++ y :: post) x := by
  rw [ahead_append, ahead_append, ahead_cons]
  omega

/-- Two requests of distinct tickets with nothing ahead of either do not
conflict. -/
theorem not_conflict_of_ahead_eq_zero (hsym : ∀ a b, conflict a b = conflict b a) {q : List α} {a b : α}
    (ha : a ∈ q) (hb : b ∈ q) (hne : ticket a ≠ ticket b) (ha0 : ahead conflict ticket q a = 0)
    (hb0 : ahead conflict ticket q b = 0) : conflict a b = false := by
  rw [Bool.eq_false_iff]
  intro hab
  have h1 := ahead_eq_zero_iff.mp hb0 a ha hab
  have h2 := ahead_eq_zero_iff.mp ha0 b hb (by rw [hsym]; exact hab)
  omega

/-! ## Requests of distinct keys -/

section Keyed

variable {β : Type*} (key : α → β) {pre post : List α} {x : α}

theorem key_ne_of_mem_pre (hnd : ((pre ++ x :: post).map key).Nodup) {y : α} (hy : y ∈ pre) :
    key y ≠ key x := by
  rw [List.map_append, List.nodup_append] at hnd
  exact hnd.2.2 _ (List.mem_map_of_mem hy) _ (by simp)

theorem key_ne_of_mem_post (hnd : ((pre ++ x :: post).map key).Nodup) {y : α} (hy : y ∈ post) :
    key y ≠ key x := by
  rw [List.map_append, List.nodup_append, List.map_cons, List.nodup_cons] at hnd
  exact fun h => hnd.2.1.1 (h ▸ List.mem_map_of_mem hy)

/-- Taking the request of `x`'s key out of a queue of distinct keys leaves the
others in order. -/
theorem filter_key_ne [DecidableEq β] (hnd : ((pre ++ x :: post).map key).Nodup) :
    (pre ++ x :: post).filter (fun y => key y ≠ key x) = pre ++ post := by
  have hpre : pre.filter (fun y => key y ≠ key x) = pre :=
    List.filter_eq_self.mpr fun y hy => by simpa using key_ne_of_mem_pre key hnd hy
  have hpost : post.filter (fun y => key y ≠ key x) = post :=
    List.filter_eq_self.mpr fun y hy => by simpa using key_ne_of_mem_post key hnd hy
  rw [List.filter_append, List.filter_cons_of_neg (by simp), hpre, hpost]

/-- The request of a key, in a queue of distinct keys. -/
theorem find?_key [DecidableEq β] (hnd : ((pre ++ x :: post).map key).Nodup) :
    (pre ++ x :: post).find? (fun y => key y = key x) = some x := by
  have hpre := fun y (hy : y ∈ pre) => key_ne_of_mem_pre key hnd hy
  clear hnd
  induction pre with
  | nil => simp
  | cons y pre ih =>
    have hy := hpre y (by simp)
    simp only [List.cons_append, List.find?_cons, hy, decide_false]
    exact ih fun z hz => hpre z (by simp [hz])

end Keyed

end ConflictQueue
