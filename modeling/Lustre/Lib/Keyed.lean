import Mathlib

/-! # Amounts filed under keys

Items of a list, each filed under at most one key and carrying an amount.
Over a list of distinct keys, the amount of the whole list is the sum of
the amounts filed under each key, provided every item with an amount is
filed under one of them (`sum_eq_sum_filed`); so when no key holds more
than its capacity, the list holds at most the sum of the capacities
(`sum_le_sum_filed`). Nothing here refers to a particular program.
-/

namespace Keyed

variable {α κ : Type} [DecidableEq κ]

/-- The amount filed under `k`. -/
def filed (f : α → Nat) (key : α → Option κ) (L : List α) (k : κ) : Nat :=
  ((L.filter fun a => key a = some k).map f).sum

@[simp] theorem filed_nil (f : α → Nat) (key : α → Option κ) (k : κ) : filed f key [] k = 0 := rfl

theorem filed_cons (f : α → Nat) (key : α → Option κ) (a : α) (L : List α) (k : κ) :
    filed f key (a :: L) k = (if key a = some k then f a else 0) + filed f key L k := by
  unfold filed
  by_cases h : key a = some k
  · simp [h]
  · simp [h]

theorem filed_append (f : α → Nat) (key : α → Option κ) (L₁ L₂ : List α) (k : κ) :
    filed f key (L₁ ++ L₂) k = filed f key L₁ k + filed f key L₂ k := by
  simp [filed, List.filter_append]

theorem filed_perm (f : α → Nat) (key : α → Option κ) {L₁ L₂ : List α} (hp : L₁.Perm L₂) (k : κ) :
    filed f key L₁ k = filed f key L₂ k :=
  ((hp.filter _).map f).sum_eq

theorem filed_eq_zero (f : α → Nat) (key : α → Option κ) {L : List α} {k : κ} (h : ∀ a ∈ L, key a ≠ some k) :
    filed f key L k = 0 := by
  unfold filed
  rw [List.filter_eq_nil_iff.mpr fun a ha => by simpa using h a ha]
  rfl

/-- Only the items filed under `k` count for it. -/
theorem filed_congr {f g : α → Nat} (key : α → Option κ) {L : List α} {k : κ}
    (h : ∀ a ∈ L, key a = some k → f a = g a) : filed f key L k = filed g key L k := by
  unfold filed
  congr 1
  apply List.map_congr_left
  intro a ha
  have ha' := List.mem_filter.mp ha
  exact h a ha'.1 (of_decide_eq_true ha'.2)

/-- Rewriting the items without moving them between keys. -/
theorem filed_map (f : α → Nat) (key : α → Option κ) (g : α → α) (hg : ∀ a, key (g a) = key a) (L : List α)
    (k : κ) : filed f key (L.map g) k = filed (f ∘ g) key L k := by
  unfold filed
  rw [List.filter_map, List.map_map]
  congr 3
  funext a
  simp [hg a]

/-- Dropping items keeps a key all of whose items stay, and empties one all
of whose items go. -/
theorem filed_filter_of_keep (f : α → Nat) (key : α → Option κ) (p : α → Bool) (L : List α) {k : κ}
    (hp : ∀ a, key a = some k → p a = true) : filed f key (L.filter p) k = filed f key L k := by
  unfold filed
  rw [List.filter_filter]
  congr 3
  funext a
  by_cases h : key a = some k
  · simp [h, hp a h]
  · simp [h]

theorem filed_filter_of_drop (f : α → Nat) (key : α → Option κ) (p : α → Bool) (L : List α) {k : κ}
    (hp : ∀ a, key a = some k → p a = false) : filed f key (L.filter p) k = 0 := by
  unfold filed
  rw [List.filter_filter]
  have hnil : L.filter (fun a => decide (key a = some k) && p a) = [] := by
    rw [List.filter_eq_nil_iff]
    intro a _
    by_cases h : key a = some k
    · simp [h, hp a h]
    · simp [h]
  rw [hnil]
  rfl

/-- One item is filed under its key. -/
theorem le_filed (f : α → Nat) (key : α → Option κ) {L : List α} {a : α} (ha : a ∈ L) {k : κ} (hk : key a = some k) :
    f a ≤ filed f key L k :=
  List.single_le_sum (fun _ _ => Nat.zero_le _) _ (List.mem_map_of_mem (List.mem_filter.mpr ⟨ha, by simpa using hk⟩))

/-- A key that no item is filed under carries nothing. -/
theorem filed_eq_zero_of_count (f : α → Nat) (key : α → Option κ) {L : List α} {k : κ}
    (h : filed (fun _ => 1) key L k = 0) : filed f key L k = 0 := by
  unfold filed at h ⊢
  rw [List.map_const', List.sum_replicate, nsmul_eq_mul, Nat.cast_id, Nat.mul_one, List.length_eq_zero_iff] at h
  rw [h]
  rfl

theorem filed_sublist_le (f : α → Nat) (key : α → Option κ) {L₁ L₂ : List α} (h : L₁.Sublist L₂) (k : κ) :
    filed f key L₁ k ≤ filed f key L₂ k :=
  ((h.filter _).map f).sum_le_sum fun _ _ => Nat.zero_le _

/-- Replacing the item at an index moves its amount between keys. -/
theorem filed_set (f : α → Nat) (key : α → Option κ) {L : List α} {n : Nat} (hn : n < L.length) (a : α) (k : κ) :
    filed f key (L.set n a) k + (if key L[n] = some k then f L[n] else 0) =
      filed f key L k + (if key a = some k then f a else 0) := by
  have hL : L = L.take n ++ L[n] :: L.drop (n + 1) := by
    rw [← List.drop_eq_getElem_cons hn, List.take_append_drop]
  have hset : L.set n a = L.take n ++ a :: L.drop (n + 1) := by
    rw [List.set_eq_take_append_cons_drop, if_pos hn]
  rw [hset]
  conv => rhs; rw [hL]
  rw [filed_append, filed_cons, filed_append, filed_cons]
  omega

/-- Summing a list after replacing the item at an index. -/
theorem sum_map_set {M : Type} [AddCommMonoid M] (f : α → M) {L : List α} {n : Nat} (hn : n < L.length) (a : α) :
    ((L.set n a).map f).sum + f L[n] = (L.map f).sum + f a := by
  have hL : L = L.take n ++ L[n] :: L.drop (n + 1) := by
    rw [← List.drop_eq_getElem_cons hn, List.take_append_drop]
  have hset : L.set n a = L.take n ++ a :: L.drop (n + 1) := by
    rw [List.set_eq_take_append_cons_drop, if_pos hn]
  rw [hset]
  conv => rhs; rw [hL]
  simp only [List.map_append, List.map_cons, List.sum_append, List.sum_cons]
  abel

/-- Summing a list is the item at an index plus the rest. -/
theorem sum_map_eraseIdx {M : Type} [AddCommMonoid M] (f : α → M) {L : List α} {n : Nat} (hn : n < L.length) :
    (L.map f).sum = f L[n] + ((L.eraseIdx n).map f).sum := by
  have hL : L = L.take n ++ L[n] :: L.drop (n + 1) := by
    rw [← List.drop_eq_getElem_cons hn, List.take_append_drop]
  rw [List.eraseIdx_eq_take_drop_succ]
  conv => lhs; rw [hL]
  simp only [List.map_append, List.map_cons, List.sum_append, List.sum_cons]
  abel

/-- The signed differences sum to at most the truncated ones. -/
theorem sum_sub_le (a b : α → Nat) (L : List α) :
    (L.map fun x => (a x : Int) - b x).sum ≤ ((L.map fun x => a x - b x).sum : Nat) := by
  induction L with
  | nil => simp
  | cons x L ih =>
    simp only [List.map_cons, List.sum_cons, Nat.cast_add]
    have : (a x : Int) - b x ≤ ((a x - b x : Nat) : Int) := by omega
    omega

/-- Over distinct keys, an item filed under one of them is counted once. -/
theorem sum_ite_key {ks : List κ} (hnd : ks.Nodup) {k₀ : κ} (hk : k₀ ∈ ks) (c : Nat) :
    (ks.map fun k => if some k₀ = some k then c else 0).sum = c := by
  rw [List.sum_map_eq_nsmul_single k₀ _ fun k hne _ => if_neg fun h => hne (Option.some.inj h).symm,
    List.count_eq_one_of_mem hnd hk]
  simp

theorem sum_eq_sum_filed (f : α → Nat) (key : α → Option κ) {ks : List κ} (hnd : ks.Nodup) :
    ∀ L : List α, (∀ a ∈ L, f a ≠ 0 → ∃ k ∈ ks, key a = some k) →
      (L.map f).sum = (ks.map (filed f key L)).sum
  | [], _ => by
    have hnil : filed f key [] = fun _ => 0 := rfl
    rw [hnil]
    simp
  | a :: L, hkey => by
    have ih := sum_eq_sum_filed f key hnd L fun b hb => hkey b (List.mem_cons_of_mem a hb)
    -- the head is counted under its own key, or carries nothing
    have hhead : (ks.map fun k => if key a = some k then f a else 0).sum = f a := by
      by_cases hf : f a = 0
      · rw [hf]
        simp
      · obtain ⟨k₀, hk, hka⟩ := hkey a List.mem_cons_self hf
        rw [hka]
        exact sum_ite_key hnd hk (f a)
    have hfiled : filed f key (a :: L) = fun k => (if key a = some k then f a else 0) + filed f key L k :=
      funext (filed_cons f key a L)
    rw [List.map_cons, List.sum_cons, hfiled, List.sum_map_add, hhead, ih]

/-- When no key holds more than its capacity, the list holds at most the sum
of the capacities. -/
theorem sum_le_sum_filed (f : α → Nat) (key : α → Option κ) {ks : List κ} (hnd : ks.Nodup) (cap : κ → Nat)
    {L : List α} (hkey : ∀ a ∈ L, f a ≠ 0 → ∃ k ∈ ks, key a = some k)
    (hcap : ∀ k ∈ ks, filed f key L k ≤ cap k) : (L.map f).sum ≤ (ks.map cap).sum := by
  rw [sum_eq_sum_filed f key hnd L hkey]
  exact List.sum_le_sum hcap

/-- Over distinct keys that file every item, the items filed under each
key, one key after another, are the list in another order. -/
theorem perm_flatMap_filter {β : Type} [DecidableEq α] [DecidableEq β] (key : α → β) {ks : List β} (hnd : ks.Nodup)
    {L : List α} (hkey : ∀ a ∈ L, key a ∈ ks) : (ks.flatMap fun k => L.filter fun a => key a = k).Perm L := by
  rw [List.perm_iff_count]
  intro a
  -- an item is counted under its own key only
  have hterm : (List.count a ∘ fun k => L.filter fun b => key b = k) = fun k => if key a = k then L.count a else 0 := by
    funext k
    by_cases hk : key a = k
    · rw [if_pos hk]
      exact List.count_filter (by simpa using hk)
    · rw [if_neg hk]
      exact List.count_eq_zero_of_not_mem fun h => hk (by simpa using (List.mem_filter.mp h).2)
  rw [List.count_flatMap, hterm]
  by_cases ha : a ∈ L
  · rw [List.sum_map_eq_nsmul_single (key a) _ fun k hne _ => if_neg fun h => hne h.symm, if_pos rfl,
      List.count_eq_one_of_mem hnd (hkey a ha), one_nsmul]
  · rw [List.count_eq_zero_of_not_mem ha]
    simp

end Keyed
