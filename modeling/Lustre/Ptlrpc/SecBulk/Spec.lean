import Mathlib
import Lustre.Ptlrpc.SecBulk
import Lustre.Lib.Run
import Lustre.Lib.Waiters

/-! # The bulk encryption page pool keeps its pages

What the pool is for: the pages it owns are the free ones, a stack in the
slots below `epp_free_pages`, and those the outstanding descriptors hold,
each page once; an operation changes them only by the pages it allocates
and frees. `PoolInv` is the shape of the table that says so (counts in
order, the arrays there exactly below `ceil(epp_total_pages / P)`, the
free slots a prefix), and `EncInv` adds the descriptors.

Each slot loop has a closed form over the flat view of the table
(`takeSlots_spec`, `putSlots_spec`, `insertFill_spec`,
`insertAppend_spec`, `freePools_spec`), proved by induction on its count
with the cursor generalised; each pool function has a spec lemma built from
them; each operation keeps `EncInv` (`encPoolStep_spec`), and so every
state a run reaches does. Every access in the model is checked against the
table's `epp_max_pools` entries and faults past it, so an operation that
returns used no index past `epp_max_pools * P`.
-/

namespace Lustre.Ptlrpc

open PagedArray

variable {Page : Type} {P : Nat}

/-! ## `npages_to_npools` -/

theorem lt_npagesToNpools_iff (hP : 0 < P) {n i : Nat} : i < npagesToNpools P n ↔ i * P < n := by
  unfold npagesToNpools
  rw [Nat.lt_iff_add_one_le, Nat.le_div_iff_mul_le hP, Nat.add_mul, Nat.one_mul]
  omega

theorem npagesToNpools_le_iff (hP : 0 < P) {n i : Nat} : npagesToNpools P n ≤ i ↔ n ≤ i * P := by
  rw [← not_lt, lt_npagesToNpools_iff hP, not_lt]

/-- The array of a slot below `n` is one of the first `ceil(n / P)`. -/
theorem div_lt_npagesToNpools (hP : 0 < P) {n k : Nat} (hk : k < n) : k / P < npagesToNpools P n := by
  rw [lt_npagesToNpools_iff hP]
  exact lt_of_le_of_lt (Nat.div_mul_le_self k P) hk

theorem le_npagesToNpools_mul (hP : 0 < P) (n : Nat) : n ≤ npagesToNpools P n * P :=
  (npagesToNpools_le_iff hP).1 le_rfl

theorem npagesToNpools_mono {n n' : Nat} (h : n ≤ n') : npagesToNpools P n ≤ npagesToNpools P n' :=
  Nat.div_le_div_right (by omega)

/-- The arrays for `n ≥ 1` pages: one past the array of the last page. -/
theorem npagesToNpools_eq_succ (hP : 0 < P) {n : Nat} (hn : 0 < n) : npagesToNpools P n = (n - 1) / P + 1 := by
  rw [npagesToNpools, show n + P - 1 = n - 1 + 1 * P by omega, Nat.add_mul_div_right _ _ hP]

theorem npagesToNpools_zero (hP : 0 < P) : npagesToNpools P 0 = 0 :=
  Nat.div_eq_of_lt (by omega)

theorem npagesToNpools_add_le (hP : 0 < P) (a b : Nat) :
    npagesToNpools P (a + b) ≤ npagesToNpools P a + npagesToNpools P b := by
  rw [npagesToNpools_le_iff hP, Nat.add_mul]
  exact Nat.add_le_add (le_npagesToNpools_mul hP a) (le_npagesToNpools_mul hP b)

/-- The free slots at the tail of the last array, as `enc_pools_insert`
counts them. -/
theorem npagesToNpools_mul_sub (hP : 0 < P) (n : Nat) :
    npagesToNpools P n * P - n = if n % P ≠ 0 then P - n % P else 0 := by
  have hk := Nat.mod_add_div n P
  have hlt := Nat.mod_lt n hP
  rw [Nat.mul_comm] at hk
  by_cases hr : n % P = 0
  · -- `n` fills its arrays
    have hc : npagesToNpools P n = n / P := by
      refine le_antisymm ((npagesToNpools_le_iff hP).2 (by omega)) ?_
      rcases Nat.eq_zero_or_pos (n / P) with h0 | h0
      · omega
      · have hPq : P ≤ n / P * P := Nat.le_mul_of_pos_left P h0
        have : n / P - 1 < npagesToNpools P n := by
          rw [lt_npagesToNpools_iff hP, Nat.sub_mul, Nat.one_mul]
          omega
        omega
    rw [hc, if_neg (not_not.2 hr)]
    omega
  · -- the last array is part full
    have hc : npagesToNpools P n = n / P + 1 := by
      refine le_antisymm ((npagesToNpools_le_iff hP).2 (by rw [Nat.add_mul, Nat.one_mul]; omega)) ?_
      exact (lt_npagesToNpools_iff hP).2 (by omega)
    rw [hc, if_pos hr, Nat.add_mul, Nat.one_mul]
    omega

/-! ## The slot loops -/

theorem isSome_of_flat_isSome {t : Table Page} {k : Nat} (h : (flat P t k).isSome) : (t (k / P)).isSome := by
  unfold flat at h
  cases hk : t (k / P) with
  | none => simp [hk] at h
  | some a => rfl

/-- `takeSlots` from flat index `k`: the pages at `k` up to `k + n` taken
in order, their slots cleared. -/
theorem takeSlots_spec (hP : 0 < P) {M : Nat} :
    ∀ (n : Nat) (t : Table Page) (k : Nat) (taken : List Page),
      (∀ j < n, (k + j) / P < M ∧ (flat P t (k + j)).isSome) →
      ∃ t', takeSlots P M n t (cursor P k) taken =
          some (t', taken ++ (List.range n).filterMap fun j => flat P t (k + j)) ∧
        (∀ i, flat P t' i = if k ≤ i ∧ i < k + n then none else flat P t i) ∧
        (∀ i, (t' i).isSome = (t i).isSome) ∧ (Narrow P t → Narrow P t')
  | 0, t, k, taken, _ => ⟨t, by simp [takeSlots], fun i => by simp, fun _ => rfl, id⟩
  | n + 1, t, k, taken, h => by
    obtain ⟨hM, hsome⟩ := h 0 (Nat.succ_pos n)
    rw [Nat.add_zero] at hM hsome
    obtain ⟨pg, hpg⟩ := Option.isSome_iff_exists.1 hsome
    have ha := isSome_of_flat_isSome hsome
    -- the first slot is taken; the rest of the loop starts one slot on
    set t₁ := setSlot t (k / P) (k % P) none
    have hflat₁ := flat_setSlot (P := P) ha none
    have hrest : ∀ j < n, (k + 1 + j) / P < M ∧ (flat P t₁ (k + 1 + j)).isSome := fun j hj => by
      rw [hflat₁, if_neg (by omega), show k + 1 + j = k + (j + 1) by omega]
      exact h (j + 1) (by omega)
    obtain ⟨t', hrun, hflat', hsome', hnarrow'⟩ := takeSlots_spec hP n t₁ (k + 1) (taken ++ [pg]) hrest
    refine ⟨t', ?_, fun i => ?_, fun i => by rw [hsome' i, setSlot_isSome], fun hn => hnarrow' (hn.setSlot
      (Nat.mod_lt k hP) none)⟩
    · have hread : read M t (k / P) (k % P) = some (some pg) := by rw [read_cursor hM ha, hpg]
      have hfm : ((List.range n).filterMap fun j => flat P t₁ (k + 1 + j)) =
          (List.range n).filterMap fun j => flat P t (k + (j + 1)) :=
        List.filterMap_congr fun j _ => by rw [hflat₁, if_neg (by omega), Nat.add_assoc, Nat.add_comm 1 j]
      simp only [cursor, takeSlots, hread]
      rw [← cursor, advance_cursor hP, hrun, hfm, List.range_succ_eq_map, List.filterMap_cons, Nat.add_zero, hpg,
        List.filterMap_map]
      simp only [List.append_assoc, List.singleton_append]
      rfl
    · rw [hflat', hflat₁]
      by_cases hi : i = k
      · simp only [hi, if_true]
        rw [if_neg (by omega), if_pos (by omega)]
      · simp only [hi, if_false]
        by_cases hin : k + 1 ≤ i ∧ i < k + 1 + n
        · rw [if_pos hin, if_pos (by omega)]
        · rw [if_neg hin, if_neg (by omega)]

/-- `putSlots` from flat index `k`: the pages in order at `k` on, into slots
that were empty. -/
theorem putSlots_spec (hP : 0 < P) {M : Nat} :
    ∀ (vec : List Page) (t : Table Page) (k : Nat),
      (∀ j < vec.length, (k + j) / P < M ∧ (t ((k + j) / P)).isSome ∧ flat P t (k + j) = none) →
      ∃ t', putSlots P M vec t (cursor P k) = some t' ∧
        (∀ i, flat P t' i = if k ≤ i ∧ i < k + vec.length then vec[i - k]? else flat P t i) ∧
        (∀ i, (t' i).isSome = (t i).isSome) ∧ (Narrow P t → Narrow P t')
  | [], t, k, _ => ⟨t, rfl, fun i => by simp, fun _ => rfl, id⟩
  | pg :: vec, t, k, h => by
    obtain ⟨hM, ha, hnone⟩ := h 0 (by simp)
    rw [Nat.add_zero] at hM ha hnone
    -- the first page goes in; the rest of the loop starts one slot on
    set t₁ := setSlot t (k / P) (k % P) (some pg)
    have hflat₁ := flat_setSlot (P := P) ha (some pg)
    have hrest : ∀ j < vec.length, (k + 1 + j) / P < M ∧ (t₁ ((k + 1 + j) / P)).isSome ∧
        flat P t₁ (k + 1 + j) = none := fun j hj => by
      rw [setSlot_isSome, hflat₁, if_neg (by omega), show k + 1 + j = k + (j + 1) by omega]
      exact h (j + 1) (by simp; omega)
    obtain ⟨t', hrun, hflat', hsome', hnarrow'⟩ := putSlots_spec hP vec t₁ (k + 1) hrest
    refine ⟨t', ?_, fun i => ?_, fun i => by rw [hsome' i, setSlot_isSome], fun hn => hnarrow' (hn.setSlot
      (Nat.mod_lt k hP) (some pg))⟩
    · have hread : read M t (k / P) (k % P) = some none := by rw [read_cursor hM ha, hnone]
      simp only [cursor, putSlots, hread]
      rw [← cursor, advance_cursor hP, hrun]
    · rw [hflat', hflat₁, List.length_cons]
      by_cases hi : i = k
      · subst hi
        rw [if_neg (by omega), if_pos rfl, if_pos (by omega), Nat.sub_self, List.getElem?_cons_zero]
      · rw [if_neg hi]
        by_cases hin : k + 1 ≤ i ∧ i < k + 1 + vec.length
        · rw [if_pos hin, if_pos (by omega), show i - k = (i - (k + 1)) + 1 by omega, List.getElem?_cons_succ]
        · rw [if_neg hin, if_neg (by omega)]

/-- `freePools` from array `i` down: `n` arrays there, all freed. -/
theorem freePools_spec {M : Nat} :
    ∀ (n : Nat) (t : Table Page) (i : Nat), n ≤ i + 1 → (∀ j < n, i - j < M ∧ (t (i - j)).isSome) →
      freePools M n t i = some fun x => if i + 1 - n ≤ x ∧ x ≤ i then none else t x
  | 0, t, i, _, _ => by
    simp only [freePools, Option.some.injEq]
    funext x
    rw [if_neg (by omega)]
  | n + 1, t, i, hn, h => by
    have hi := h 0 (Nat.succ_pos n)
    rw [Nat.sub_zero] at hi
    have hrest : ∀ j < n, i - 1 - j < M ∧ (Function.update t i none (i - 1 - j)).isSome := fun j hj => by
      rw [Function.update_of_ne (by omega), show i - 1 - j = i - (j + 1) by omega]
      exact h (j + 1) (by omega)
    rw [freePools, if_pos hi, freePools_spec n _ (i - 1) (by omega) hrest, Option.some.injEq]
    funext x
    by_cases hx : x = i
    · subst hx
      rw [if_neg (by omega), Function.update_self, if_pos (by omega)]
    · rw [Function.update_of_ne hx]
      by_cases hin : i - 1 + 1 - n ≤ x ∧ x ≤ i - 1
      · rw [if_pos hin, if_pos (by omega)]
      · rw [if_neg hin, if_neg (by omega)]

/-- One turn of `insertFill` at flat indices `k` of the pool and `m` of the
new arrays: the page moves over, and the loop ends at new index 0 or goes
on from `k + 1` and `m - 1`. -/
theorem insertFill_succ (hP : 0 < P) {M npools fs k m : Nat} {t nt : Table Page} {pg : Page}
    (hk : read M t (k / P) (k % P) = some none) (hm : read npools nt (m / P) (m % P) = some (some pg)) :
    insertFill P M npools (fs + 1) t nt (cursor P k) (cursor P m) =
      if m = 0 then some (setSlot t (k / P) (k % P) (some pg), setSlot nt (m / P) (m % P) none)
      else insertFill P M npools fs (setSlot t (k / P) (k % P) (some pg)) (setSlot nt (m / P) (m % P) none)
        (cursor P (k + 1)) (cursor P (m - 1)) := by
  have hadv : advance P (k / P, k % P) = ((k + 1) / P, (k + 1) % P) := advance_cursor hP k
  simp only [cursor, insertFill, hk, hm, hadv]
  by_cases hm0 : m = 0
  · subst hm0
    simp
  · rw [if_neg hm0]
    by_cases hg : m % P = 0
    · have hp : m / P ≠ 0 := fun hp => hm0 (cursor_eq_zero_iff.1 ⟨hp, hg⟩)
      have hpred := cursor_pred_of_mod_eq_zero hP (Nat.pos_of_ne_zero hm0) hg
      unfold cursor at hpred
      simp only [if_pos hg, if_neg hp, hpred]
    · have hpred := cursor_pred_of_mod_ne_zero hP hg
      unfold cursor at hpred
      simp only [if_neg hg, hpred]

/-- `insertFill` from flat index `k` of the pool and `m` of the new arrays,
with `fs` free slots: for `r = min fs (m + 1)` turns, slot `k + j` takes
new page `m - j`, which leaves the new arrays. -/
theorem insertFill_spec (hP : 0 < P) {M npools : Nat} :
    ∀ (fs : Nat) (t nt : Table Page) (k m : Nat),
      (∀ j < min fs (m + 1), (k + j) / P < M ∧ (t ((k + j) / P)).isSome ∧ flat P t (k + j) = none ∧
        (m - j) / P < npools ∧ (flat P nt (m - j)).isSome) →
      ∃ t' nt', insertFill P M npools fs t nt (cursor P k) (cursor P m) = some (t', nt') ∧
        (∀ i, flat P t' i = if k ≤ i ∧ i < k + min fs (m + 1) then flat P nt (m - (i - k)) else flat P t i) ∧
        (∀ j, flat P nt' j = if m + 1 - min fs (m + 1) ≤ j ∧ j ≤ m then none else flat P nt j) ∧
        (∀ i, (t' i).isSome = (t i).isSome) ∧ (∀ i, (nt' i).isSome = (nt i).isSome) ∧
        (Narrow P t → Narrow P t') ∧ (Narrow P nt → Narrow P nt')
  | 0, t, nt, k, m, _ => ⟨t, nt, by simp [insertFill], fun i => by simp,
      fun j => by rw [Nat.zero_min, if_neg (by omega)], fun _ => rfl, fun _ => rfl, id, id⟩
  | fs + 1, t, nt, k, m, h => by
    obtain ⟨hM, ha, hnone, hnM, hsome⟩ := h 0 (by omega)
    rw [Nat.add_zero] at hM ha hnone
    rw [Nat.sub_zero] at hnM hsome
    obtain ⟨pg, hpg⟩ := Option.isSome_iff_exists.1 hsome
    have hna := isSome_of_flat_isSome hsome
    have hk : read M t (k / P) (k % P) = some none := by rw [read_cursor hM ha, hnone]
    have hm : read npools nt (m / P) (m % P) = some (some pg) := by rw [read_cursor hnM hna, hpg]
    -- the page at new index `m` goes to slot `k`
    set t₁ := setSlot t (k / P) (k % P) (some pg)
    set nt₁ := setSlot nt (m / P) (m % P) none
    have hflat₁ := flat_setSlot (P := P) ha (some pg)
    have hnflat₁ := flat_setSlot (P := P) hna none
    have hnarrow₁ : Narrow P t → Narrow P t₁ := fun hn => hn.setSlot (Nat.mod_lt k hP) _
    have hnnarrow₁ : Narrow P nt → Narrow P nt₁ := fun hn => hn.setSlot (Nat.mod_lt m hP) _
    rw [insertFill_succ hP hk hm]
    by_cases hm0 : m = 0
    · -- the new pages ran out: the loop breaks
      subst hm0
      rw [if_pos rfl]
      refine ⟨t₁, nt₁, rfl, fun i => ?_, fun j => ?_, fun i => setSlot_isSome _ _ _ _ i,
        fun i => setSlot_isSome _ _ _ _ i, hnarrow₁, hnnarrow₁⟩
      · rw [hflat₁, show min (fs + 1) (0 + 1) = 1 by omega]
        by_cases hi : i = k
        · rw [if_pos hi, if_pos (by omega), hi, Nat.sub_self, Nat.sub_zero, hpg]
        · rw [if_neg hi, if_neg (by omega)]
      · rw [hnflat₁, show min (fs + 1) (0 + 1) = 1 by omega]
        by_cases hj : j = 0
        · rw [if_pos hj, if_pos (by omega)]
        · rw [if_neg hj, if_neg (by omega)]
    · rw [if_neg hm0]
      have hmin : min (fs + 1) (m + 1) = min fs (m - 1 + 1) + 1 := by omega
      have hrest : ∀ j < min fs (m - 1 + 1), (k + 1 + j) / P < M ∧ (t₁ ((k + 1 + j) / P)).isSome ∧
          flat P t₁ (k + 1 + j) = none ∧ (m - 1 - j) / P < npools ∧ (flat P nt₁ (m - 1 - j)).isSome :=
        fun j hj => by
          rw [setSlot_isSome, hflat₁, hnflat₁, if_neg (by omega), if_neg (by omega),
            show k + 1 + j = k + (j + 1) by omega, show m - 1 - j = m - (j + 1) by omega]
          exact h (j + 1) (by omega)
      obtain ⟨t', nt', hrun, hflat', hnflat', hsome', hnsome', hnarrow', hnnarrow'⟩ :=
        insertFill_spec hP fs t₁ nt₁ (k + 1) (m - 1) hrest
      refine ⟨t', nt', hrun, fun i => ?_, fun j => ?_, fun i => by rw [hsome' i, setSlot_isSome],
        fun i => by rw [hnsome' i, setSlot_isSome], fun hn => hnarrow' (hnarrow₁ hn),
        fun hn => hnnarrow' (hnnarrow₁ hn)⟩
      · rw [hflat', hflat₁, hmin]
        by_cases hi : i = k
        · rw [if_neg (by omega), if_pos hi, if_pos (by omega), hi, Nat.sub_self, Nat.sub_zero, hpg]
        · rw [if_neg hi]
          by_cases hin : k + 1 ≤ i ∧ i < k + 1 + min fs (m - 1 + 1)
          · rw [if_pos hin, if_pos (by omega), hnflat₁, if_neg (by omega),
              show m - 1 - (i - (k + 1)) = m - (i - k) by omega]
          · rw [if_neg hin, if_neg (by omega)]
      · rw [hnflat', hnflat₁, hmin]
        by_cases hj : j = m
        · rw [if_neg (by omega), if_pos hj, if_pos (by omega)]
        · rw [if_neg hj]
          by_cases hin : m - 1 + 1 - min fs (m - 1 + 1) ≤ j ∧ j ≤ m - 1
          · rw [if_pos hin, if_pos (by omega)]
          · rw [if_neg hin, if_neg (by omega)]

/-- `insertAppend` of `n` arrays: arrays `np` on of the new ones become
arrays `cur` on of the table, and leave the new ones. -/
theorem insertAppend_spec {M npools : Nat} :
    ∀ (n : Nat) (t nt : Table Page) (cur np : Nat),
      (∀ j < n, cur + j < M ∧ t (cur + j) = none ∧ np + j < npools ∧ (nt (np + j)).isSome) →
      insertAppend M npools n t nt cur np =
        some (fun i => if cur ≤ i ∧ i < cur + n then nt (np + (i - cur)) else t i,
          fun i => if np ≤ i ∧ i < np + n then none else nt i)
  | 0, t, nt, cur, np, _ => by
    simp only [insertAppend, Option.some.injEq, Prod.mk.injEq]
    constructor <;> funext i <;> rw [if_neg (by omega)]
  | n + 1, t, nt, cur, np, h => by
    obtain ⟨hM, hnone, hnp, hsome⟩ := h 0 (Nat.succ_pos n)
    rw [Nat.add_zero] at hM hnone hnp hsome
    have hrest : ∀ j < n, cur + 1 + j < M ∧ Function.update t cur (nt np) (cur + 1 + j) = none ∧
        np + 1 + j < npools ∧ (Function.update nt np none (np + 1 + j)).isSome := fun j hj => by
      rw [Function.update_of_ne (by omega), Function.update_of_ne (by omega),
        show cur + 1 + j = cur + (j + 1) by omega, show np + 1 + j = np + (j + 1) by omega]
      exact h (j + 1) (by omega)
    have hcond : cur < M ∧ (t cur).isNone ∧ np < npools ∧ (nt np).isSome := ⟨hM, by rw [hnone]; rfl, hnp, hsome⟩
    rw [insertAppend, if_pos hcond, insertAppend_spec n _ _ (cur + 1) (np + 1) hrest]
    simp only [Option.some.injEq, Prod.mk.injEq]
    constructor
    · funext i
      by_cases hi : i = cur
      · subst hi
        rw [if_neg (by omega), Function.update_self, if_pos (by omega), Nat.sub_self, Nat.add_zero]
      · rw [Function.update_of_ne hi]
        by_cases hin : cur + 1 ≤ i ∧ i < cur + 1 + n
        · rw [if_pos hin, if_pos (by omega), Function.update_of_ne (by omega),
            show np + 1 + (i - (cur + 1)) = np + (i - cur) by omega]
        · rw [if_neg hin, if_neg (by omega)]
    · funext i
      by_cases hi : i = np
      · subst hi
        rw [if_neg (by omega), Function.update_self, if_pos (by omega)]
      · rw [Function.update_of_ne hi]
        by_cases hin : np + 1 ≤ i ∧ i < np + 1 + n
        · rw [if_pos hin, if_pos (by omega)]
        · rw [if_neg hin, if_neg (by omega)]

/-! ## The shape of the pool -/

/-- The free pages: the stack in the slots below `epp_free_pages`. -/
def freeStack (P : Nat) (pp : PtlrpcEncPagePool Page) : Multiset Page :=
  stackOf (flat P pp.eppPools) pp.eppFreePages

/-- The shape of `struct ptlrpc_enc_page_pool` between calls: the counts in
order, the pool arrays there exactly below `ceil(epp_total_pages / P)`, and
a page in slot `k` exactly when `k < epp_free_pages`. -/
structure PoolInv (P : Nat) (pp : PtlrpcEncPagePool Page) : Prop where
  free_le : pp.eppFreePages ≤ pp.eppTotalPages
  total_le : pp.eppTotalPages ≤ pp.eppMaxPages
  max_pools : pp.eppMaxPools = npagesToNpools P pp.eppMaxPages
  pools : ∀ i, (pp.eppPools i).isSome ↔ i < npagesToNpools P pp.eppTotalPages
  slots : ∀ k, (flat P pp.eppPools k).isSome ↔ k < pp.eppFreePages
  narrow : Narrow P pp.eppPools

section Shape

variable {pp : PtlrpcEncPagePool Page}

/-- The arrays there are within the table. -/
theorem PoolInv.lt_max_pools (hI : PoolInv P pp) {i : Nat} (hi : i < npagesToNpools P pp.eppTotalPages) :
    i < pp.eppMaxPools :=
  lt_of_lt_of_le hi (hI.max_pools ▸ npagesToNpools_mono hI.total_le)

/-- A slot below `epp_total_pages` is in an array that is there, within
the table. -/
theorem PoolInv.slot_ok (hP : 0 < P) (hI : PoolInv P pp) {k : Nat} (hk : k < pp.eppTotalPages) :
    k / P < pp.eppMaxPools ∧ (pp.eppPools (k / P)).isSome :=
  have h := div_lt_npagesToNpools hP hk
  ⟨hI.lt_max_pools h, (hI.pools _).2 h⟩

/-- The top `n` free pages taken by `takeSlots`: the stack below
`epp_free_pages - n` stays, and the rest is what was taken. -/
theorem PoolInv.takeSlots_top (hP : 0 < P) (hI : PoolInv P pp) {n : Nat} (hn : n ≤ pp.eppFreePages) :
    ∃ t' taken, takeSlots P pp.eppMaxPools n pp.eppPools (cursor P (pp.eppFreePages - n)) [] = some (t', taken) ∧
      taken.length = n ∧ stackOf (flat P t') (pp.eppFreePages - n) + taken = freeStack P pp ∧
      (∀ k, (flat P t' k).isSome ↔ k < pp.eppFreePages - n) ∧ (∀ i, (t' i).isSome = (pp.eppPools i).isSome) ∧
      Narrow P t' := by
  have hpre : ∀ j < n, (pp.eppFreePages - n + j) / P < pp.eppMaxPools ∧
      (flat P pp.eppPools (pp.eppFreePages - n + j)).isSome := fun j hj =>
    ⟨(hI.slot_ok hP (by have := hI.free_le; omega)).1, (hI.slots _).2 (by omega)⟩
  obtain ⟨t', hrun, hflat, hsome, hnarrow⟩ := takeSlots_spec hP n pp.eppPools (pp.eppFreePages - n) [] hpre
  rw [List.nil_append] at hrun
  refine ⟨t', _, hrun, ?_, ?_, fun k => ?_, hsome, hnarrow hI.narrow⟩
  · rw [← Multiset.coe_card]
    exact card_stackOf fun j hj => (hI.slots _).2 (by omega)
  · -- below the taken slots nothing changed
    have hbelow : stackOf (flat P t') (pp.eppFreePages - n) = stackOf (flat P pp.eppPools) (pp.eppFreePages - n) :=
      stackOf_congr fun k hk => by rw [hflat, if_neg (by omega)]
    rw [hbelow, freeStack, ← Nat.sub_add_cancel hn, stackOf_add, Nat.sub_add_cancel hn]
    rfl
  · rw [hflat]
    split_ifs with hk
    · simp only [Option.isSome_none, Bool.false_eq_true, false_iff]
      omega
    · rw [hI.slots]
      omega

/-! ### Getting and putting pages -/

/-- `sptlrpc_enc_pool_get_pages` with enough free pages, for a descriptor
without pages whose `bd_enc_vec` is allocated: the top `bd_iov_count` free
pages move to the descriptor. -/
theorem sptlrpcEncPoolGetPages_take (hP : 0 < P) (hI : PoolInv P pp) {desc : PtlrpcBulkDesc Page}
    (hcount : 0 < desc.bdIovCount ∧ desc.bdIovCount ≤ pp.eppMaxPages) (hvec : desc.bdEncVec = none)
    (hfree : desc.bdIovCount ≤ pp.eppFreePages) (growing : Bool) :
    ∃ pp' vec, sptlrpcEncPoolGetPages P pp desc true growing =
        some (.done 0, pp', { desc with bdEncVec := some vec }) ∧
      PoolInv P pp' ∧ vec.length = desc.bdIovCount ∧ freeStack P pp' + vec = freeStack P pp ∧
      pp'.eppTotalPages = pp.eppTotalPages ∧ pp'.eppFreePages = pp.eppFreePages - desc.bdIovCount := by
  obtain ⟨t', taken, hrun, hlen, hstack, hslots, hsome, hnarrow⟩ := hI.takeSlots_top hP hfree
  refine ⟨{ pp with eppFreePages := pp.eppFreePages - desc.bdIovCount, eppPools := t' }, taken, ?_,
    ⟨by have := hI.free_le; dsimp only; omega, hI.total_le, hI.max_pools, fun i => by rw [← hI.pools i, hsome i],
      hslots, hnarrow⟩, hlen, hstack, rfl, rfl⟩
  unfold cursor at hrun
  simp only [sptlrpcEncPoolGetPages, if_neg (not_not.2 hcount), hvec, Option.isSome_none, Bool.false_eq_true,
    if_false, not_true_eq_false, if_neg (not_lt.2 hfree), hrun, Option.map_some]

/-- The other ends of `sptlrpc_enc_pool_get_pages` leave the pool and the
descriptor as they were: a descriptor that has its pages (a resent bulk),
`bd_enc_vec` not allocated, or too few free pages. -/
theorem sptlrpcEncPoolGetPages_of_not_take {desc : PtlrpcBulkDesc Page} {allocOk : Bool} (growing : Bool)
    (hcount : 0 < desc.bdIovCount ∧ desc.bdIovCount ≤ pp.eppMaxPages)
    (h : desc.bdEncVec.isSome ∨ allocOk = false ∨ pp.eppFreePages < desc.bdIovCount) :
    ∃ rc, sptlrpcEncPoolGetPages P pp desc allocOk growing = some (rc, pp, desc) := by
  unfold sptlrpcEncPoolGetPages
  rw [if_neg (not_not.2 hcount)]
  by_cases hv : desc.bdEncVec.isSome
  · exact ⟨_, by rw [if_pos hv]⟩
  · rw [if_neg hv]
    by_cases ha : allocOk = false
    · exact ⟨_, by rw [if_pos (by simp [ha])]⟩
    · have hf : pp.eppFreePages < desc.bdIovCount := by
        rcases h with h | h | h
        · exact absurd h hv
        · exact absurd h ha
        · exact h
      rw [if_neg (by simpa using ha), if_pos hf]
      split_ifs
      exacts [⟨_, rfl⟩, ⟨_, rfl⟩, ⟨_, rfl⟩]

/-- `sptlrpc_enc_pool_put_pages` of a descriptor holding `bd_iov_count`
pages, when that many slots above the free ones were rented out: the pages
go back on the stack. -/
theorem sptlrpcEncPoolPutPages_spec (hP : 0 < P) (hI : PoolInv P pp) {desc : PtlrpcBulkDesc Page}
    {vec : List Page} (hvec : desc.bdEncVec = some vec) (hlen : vec.length = desc.bdIovCount)
    (hpos : 0 < desc.bdIovCount) (hroom : pp.eppFreePages + desc.bdIovCount ≤ pp.eppTotalPages) :
    ∃ pp', sptlrpcEncPoolPutPages P pp desc = some (pp', { desc with bdEncVec := none }) ∧ PoolInv P pp' ∧
      freeStack P pp' = freeStack P pp + vec ∧ pp'.eppTotalPages = pp.eppTotalPages ∧
      pp'.eppFreePages = pp.eppFreePages + desc.bdIovCount := by
  have hpre : ∀ j < vec.length, (pp.eppFreePages + j) / P < pp.eppMaxPools ∧
      (pp.eppPools ((pp.eppFreePages + j) / P)).isSome ∧ flat P pp.eppPools (pp.eppFreePages + j) = none :=
    fun j hj => ⟨(hI.slot_ok hP (by omega)).1, (hI.slot_ok hP (by omega)).2,
      Option.not_isSome_iff_eq_none.1 fun h => by have := (hI.slots _).1 h; omega⟩
  obtain ⟨t', hrun, hflat, hsome, hnarrow⟩ := putSlots_spec hP vec pp.eppPools pp.eppFreePages hpre
  have hslot := hI.slot_ok hP (k := pp.eppFreePages) (by omega)
  have hcond : 0 < desc.bdIovCount ∧ pp.eppFreePages + desc.bdIovCount ≤ pp.eppTotalPages ∧
      pp.eppFreePages / P < pp.eppMaxPools ∧ (pp.eppPools (pp.eppFreePages / P)).isSome :=
    ⟨hpos, hroom, hslot⟩
  refine ⟨{ pp with eppPools := t', eppFreePages := pp.eppFreePages + desc.bdIovCount }, ?_,
    ⟨by dsimp only; omega, hI.total_le, hI.max_pools, fun i => by rw [← hI.pools i, hsome i], fun k => ?_,
      hnarrow hI.narrow⟩, ?_, rfl, rfl⟩
  · unfold cursor at hrun
    simp only [sptlrpcEncPoolPutPages, hvec, if_neg (not_not.2 hcond), hrun, Option.map_some]
  · -- the pages sit right above the old free ones
    dsimp only
    rw [hflat, hlen]
    split_ifs with hk
    · simp only [List.getElem?_eq_getElem (show k - pp.eppFreePages < vec.length by omega), Option.isSome_some,
        true_iff]
      omega
    · rw [hI.slots]
      omega
  · rw [freeStack, freeStack, stackOf_add]
    dsimp only
    have hbelow : stackOf (flat P t') pp.eppFreePages = stackOf (flat P pp.eppPools) pp.eppFreePages :=
      stackOf_congr fun k hk => by rw [hflat, if_neg (by omega)]
    have habove : stackOf (fun j => flat P t' (pp.eppFreePages + j)) desc.bdIovCount =
        stackOf (fun j => vec[j]?) desc.bdIovCount :=
      stackOf_congr fun j hj => by rw [hflat, if_pos (by omega), Nat.add_sub_cancel_left]
    rw [hbelow, habove, stackOf_getElem, ← hlen, List.take_length]

/-! ### Releasing free pages -/

/-- `enc_pools_release_free_pages(npages)` for `0 < npages ≤
epp_free_pages`: the top `npages` free pages are freed, and the arrays
past the last page that stays. -/
theorem encPoolsReleaseFreePages_spec (hP : 0 < P) (hI : PoolInv P pp) {n : Nat} (hn0 : 0 < n)
    (hn : n ≤ pp.eppFreePages) :
    ∃ pp' freed, encPoolsReleaseFreePages P pp n = some (pp', freed) ∧ PoolInv P pp' ∧
      freeStack P pp' + freed = freeStack P pp ∧ pp'.eppTotalPages = pp.eppTotalPages - n ∧
      pp'.eppFreePages = pp.eppFreePages - n := by
  have hft := hI.free_le
  obtain ⟨C, hCdef⟩ : ∃ C, npagesToNpools P pp.eppTotalPages = C := ⟨_, rfl⟩
  obtain ⟨C', hC'⟩ : ∃ C', npagesToNpools P (pp.eppTotalPages - n) = C' := ⟨_, rfl⟩
  have hCC' : C' ≤ C := hC' ▸ hCdef ▸ npagesToNpools_mono (by omega)
  have hC : C = (pp.eppTotalPages - 1) / P + 1 := hCdef ▸ npagesToNpools_eq_succ hP (by omega)
  obtain ⟨t', freed, hrun, hlen, hstack, hslots, hsome, hnarrow⟩ := hI.takeSlots_top hP hn
  -- the arrays from `ceil((pp.eppTotalPages - n) / P)` up are freed
  have hcount : ((((pp.eppTotalPages - 1) / P : Nat) : Int) -
      (if pp.eppTotalPages - n = 0 then (-1 : Int) else (((pp.eppTotalPages - n - 1) / P : Nat) : Int))).toNat = C - C' := by
    split_ifs with h0
    · rw [← hC', h0, npagesToNpools_zero hP]
      omega
    · rw [← hC', npagesToNpools_eq_succ hP (by omega)]
      omega
  have hfree : freePools pp.eppMaxPools (C - C') t' (C - 1) =
      some fun x => if C - 1 + 1 - (C - C') ≤ x ∧ x ≤ C - 1 then none else t' x :=
    freePools_spec _ _ _ (by omega) fun j hj =>
      ⟨hI.lt_max_pools (by omega), by rw [hsome, hI.pools]; omega⟩
  have hslot := hI.slot_ok hP (k := pp.eppFreePages - n) (by omega)
  unfold cursor at hrun
  refine ⟨{ pp with
      eppFreePages := pp.eppFreePages - n
      eppTotalPages := pp.eppTotalPages - n
      eppPools := fun x => if C - 1 + 1 - (C - C') ≤ x ∧ x ≤ C - 1 then none else t' x }, freed, ?_, ?_, ?_, rfl, rfl⟩
  · have hcond : 0 < n ∧ n ≤ pp.eppFreePages ∧ pp.eppFreePages ≤ pp.eppTotalPages := ⟨hn0, hn, hft⟩
    simp only [encPoolsReleaseFreePages, if_neg (not_not.2 hcond), if_neg (not_not.2 hslot), hrun,
      hcount, show (((pp.eppTotalPages - 1) / P : Nat) : Int).toNat = C - 1 by omega, hfree, Option.map_some]
  · refine ⟨by dsimp only; omega, by have := hI.total_le; dsimp only; omega, hI.max_pools, fun i => ?_,
      fun k => ?_, ?_⟩
    · dsimp only
      split_ifs with hi
      · simp only [Option.isSome_none, Bool.false_eq_true, false_iff]
        omega
      · rw [hsome, hI.pools]
        omega
    · -- a slot in a freed array is past the last page that stays
      dsimp only
      rw [flat]
      split_ifs with hk
      · have : C' * P ≤ k := by
          have := Nat.div_mul_le_self k P
          have hkP : C' ≤ k / P := by omega
          exact le_trans (Nat.mul_le_mul_right P hkP) this
        have := hC' ▸ le_npagesToNpools_mul hP (pp.eppTotalPages - n)
        simp only [Option.bind_none, Option.isSome_none, Bool.false_eq_true, false_iff]
        omega
      · rw [← flat, hslots]
    · intro i a hia
      dsimp only at hia
      split_ifs at hia
      exact hnarrow i a hia
  · -- the pages that stay are below the freed arrays
    have hkeep : stackOf (fun k => ((if C - 1 + 1 - (C - C') ≤ k / P ∧ k / P ≤ C - 1 then none else t' (k / P)) :
        Option (Nat → Option Page)).bind fun a => a (k % P)) (pp.eppFreePages - n) =
        stackOf (flat P t') (pp.eppFreePages - n) := stackOf_congr fun k hk => by
      have : k / P < C' := hC' ▸ div_lt_npagesToNpools hP (show k < pp.eppTotalPages - n by omega)
      rw [if_neg (by omega)]
      rfl
    exact (congrArg (· + (freed : Multiset Page)) hkeep).trans hstack

/-- `enc_pools_shrink_scan`: it releases at most what lies above
`PTLRPC_MAX_BRW_PAGES` free pages. -/
theorem encPoolsShrinkScan_spec (hP : 0 < P) (hI : PoolInv P pp) (maxBrw nrToScan : Nat) :
    ∃ pp' nr freed, encPoolsShrinkScan P maxBrw pp nrToScan = some (pp', nr, freed) ∧ PoolInv P pp' ∧
      freeStack P pp' + freed = freeStack P pp ∧
      pp'.eppTotalPages - pp'.eppFreePages = pp.eppTotalPages - pp.eppFreePages ∧
      min pp.eppFreePages maxBrw ≤ pp'.eppFreePages := by
  obtain ⟨nr, hnr⟩ : ∃ nr, (if pp.eppFreePages ≤ maxBrw then 0 else min nrToScan (pp.eppFreePages - maxBrw)) = nr :=
    ⟨_, rfl⟩
  have hle : nr ≤ pp.eppFreePages - maxBrw := by
    rw [← hnr]
    split_ifs <;> omega
  by_cases hpos : 0 < nr
  · obtain ⟨pp', freed, hrel, hI', hstack, htotal, hfree⟩ := encPoolsReleaseFreePages_spec hP hI hpos (by omega)
    have hft := hI.free_le
    refine ⟨pp', nr, freed, ?_, hI', hstack, by omega, by omega⟩
    simp only [encPoolsShrinkScan, hnr, if_pos hpos, hrel, Option.map_some]
  · exact ⟨pp, nr, [], by simp only [encPoolsShrinkScan, hnr, if_neg hpos], hI, by simp, rfl, min_le_left _ _⟩

/-! ### Growing the pool -/

theorem newPools_isSome (npools : Nat) (pages : List Page) (i : Nat) :
    (newPools P npools pages i).isSome ↔ i < npools := by
  unfold newPools
  split_ifs with hi <;> simp [hi]

/-- The new arrays of `enc_pools_add_pages`, read flat, are the pages in
order. -/
theorem flat_newPools (hP : 0 < P) (pages : List Page) (j : Nat) :
    flat P (newPools P (npagesToNpools P pages.length) pages) j = pages[j]? := by
  unfold flat newPools
  by_cases hj : j / P < npagesToNpools P pages.length
  · rw [if_pos hj, Option.bind_some]
    dsimp only
    rw [if_pos (Nat.mod_lt j hP), Nat.div_add_mod']
  · rw [if_neg hj, Option.bind_none, List.getElem?_eq_none]
    have h1 := le_npagesToNpools_mul hP pages.length
    have h2 : npagesToNpools P pages.length * P ≤ j / P * P := Nat.mul_le_mul_right P (by omega)
    have h3 := Nat.div_mul_le_self j P
    omega

theorem narrow_newPools (npools : Nat) (pages : List Page) : Narrow P (newPools P npools pages) := by
  intro i a hia g hg
  unfold newPools at hia
  split_ifs at hia
  rw [← Option.some.inj hia]
  dsimp only
  rw [if_neg (by omega)]

/-- `enc_pools_insert` of the arrays `enc_pools_add_pages` filled with
`pages`, when they fit under `epp_max_pages`: the pages go on the free
stack, the rented slots and the tail of the last array filled first, and
the new arrays keep none of them. -/
theorem encPoolsInsert_spec (hP : 0 < P) (hI : PoolInv P pp) {pages : List Page} (hpos : 0 < pages.length)
    (hmax : pp.eppTotalPages + pages.length ≤ pp.eppMaxPages) :
    ∃ pp' nt', encPoolsInsert P pp (newPools P (npagesToNpools P pages.length) pages)
        (npagesToNpools P pages.length) pages.length = some (pp', nt') ∧
      PoolInv P pp' ∧ freeStack P pp' = freeStack P pp + pages ∧
      pp'.eppTotalPages = pp.eppTotalPages + pages.length ∧ pp'.eppFreePages = pp.eppFreePages + pages.length ∧
      encPoolsCleanup P nt' (npagesToNpools P pages.length) = [] := by
  have hft := hI.free_le
  obtain ⟨C, hC⟩ : ∃ C, npagesToNpools P pp.eppTotalPages = C := ⟨_, rfl⟩
  obtain ⟨E, hE⟩ : ∃ E, npagesToNpools P (pp.eppTotalPages + pages.length) = E := ⟨_, rfl⟩
  obtain ⟨N, hN⟩ : ∃ N, npagesToNpools P pages.length = N := ⟨_, rfl⟩
  have hCP : pp.eppTotalPages ≤ C * P := hC ▸ le_npagesToNpools_mul hP _
  have hEP : pp.eppTotalPages + pages.length ≤ E * P := hE ▸ le_npagesToNpools_mul hP _
  have hCE : C ≤ E := hC ▸ hE ▸ npagesToNpools_mono (by omega)
  have hEM : E ≤ pp.eppMaxPools := hI.max_pools ▸ hE ▸ npagesToNpools_mono hmax
  have hEN : E ≤ C + N := hC ▸ hE ▸ hN ▸ npagesToNpools_add_le hP _ _
  have hCPE : C * P ≤ E * P := Nat.mul_le_mul_right P hCE
  have hnt : ∀ j, flat P (newPools P N pages) j = pages[j]? := hN ▸ flat_newPools hP pages
  -- (1) the free slots from `epp_free_pages` to the end of the last array
  -- take the last `R` new pages
  have hfreeslot : (if pp.eppTotalPages % P ≠ 0 then P - pp.eppTotalPages % P else 0) +
      (pp.eppTotalPages - pp.eppFreePages) = C * P - pp.eppFreePages := by
    rw [← npagesToNpools_mul_sub hP, hC]
    omega
  obtain ⟨R, hR⟩ : ∃ R, min (C * P - pp.eppFreePages) (pages.length - 1 + 1) = R := ⟨_, rfl⟩
  have hfillpre : ∀ j < R, (pp.eppFreePages + j) / P < pp.eppMaxPools ∧
      (pp.eppPools ((pp.eppFreePages + j) / P)).isSome ∧ flat P pp.eppPools (pp.eppFreePages + j) = none ∧
      (pages.length - 1 - j) / P < N ∧ (flat P (newPools P N pages) (pages.length - 1 - j)).isSome := by
    intro j hj
    have hin : (pp.eppFreePages + j) / P < C := (Nat.div_lt_iff_lt_mul hP).2 (by omega)
    refine ⟨by omega, (hI.pools _).2 (by omega), Option.not_isSome_iff_eq_none.1 fun h => ?_,
      hN ▸ div_lt_npagesToNpools hP (by omega), by rw [hnt, List.getElem?_eq_getElem (by omega)]; rfl⟩
    have := (hI.slots _).1 h
    omega
  obtain ⟨t₁, nt₁, hfill, hflat₁, hnflat₁, hsome₁, hnsome₁, hnarrow₁, hnnarrow₁⟩ :=
    insertFill_spec hP (C * P - pp.eppFreePages) pp.eppPools (newPools P N pages) pp.eppFreePages
      (pages.length - 1) (hR ▸ hfillpre)
  rw [hR] at hflat₁ hnflat₁
  -- (2) the new arrays from the first on hang off the table from array `C` on
  have happpre : ∀ j < E - C, C + j < pp.eppMaxPools ∧ t₁ (C + j) = none ∧ 0 + j < N ∧ (nt₁ (0 + j)).isSome := by
    intro j hj
    refine ⟨by omega, Option.not_isSome_iff_eq_none.1 fun h => ?_, by omega, ?_⟩
    · rw [hsome₁, hI.pools, hC] at h
      omega
    · rw [hnsome₁, newPools_isSome]
      omega
  have happ := insertAppend_spec (E - C) t₁ nt₁ C 0 happpre
  have hN1 : N - 1 = (pages.length - 1) / P := by
    rw [← hN, npagesToNpools_eq_succ hP hpos, Nat.add_sub_cancel]
  have hcond : 0 < pages.length ∧ pp.eppTotalPages + pages.length ≤ pp.eppMaxPages ∧
      npagesToNpools P pages.length = N := ⟨hpos, hmax, hN⟩
  unfold cursor at hfill
  rw [← hN1] at hfill
  set T := fun i => if C ≤ i ∧ i < C + (E - C) then nt₁ (0 + (i - C)) else t₁ i with hT
  -- read flat, the arrays from `C` on are the new ones
  have hflatT : ∀ k, flat P T k = if C * P ≤ k ∧ k < E * P then flat P nt₁ (k - C * P) else flat P t₁ k := by
    intro k
    rw [hT, flat_splice hP, Nat.add_sub_cancel' hCE, Nat.zero_mul, Nat.zero_add]
  refine ⟨{ pp with
      eppPools := T
      eppTotalPages := pp.eppTotalPages + pages.length
      eppFreePages := pp.eppFreePages + pages.length },
    fun i => if 0 ≤ i ∧ i < 0 + (E - C) then none else nt₁ i, ?_, ?_, ?_, rfl, rfl, ?_⟩
  · rw [hN]
    simp only [encPoolsInsert, if_neg (not_not.2 hcond), hfreeslot, hfill,
      show (pp.eppTotalPages + P - 1) / P = C from hC,
      show (pp.eppTotalPages + pages.length + P - 1) / P = E from hE, if_pos hEM, happ, Option.map_some]
  · refine ⟨by dsimp only; omega, by dsimp only; omega, hI.max_pools, fun i => ?_, fun k => ?_, ?_⟩
    · -- the arrays there: the old ones and the appended ones, below `E`
      dsimp only
      rw [hE, hT]
      dsimp only
      split_ifs with hi
      · rw [hnsome₁, newPools_isSome]
        omega
      · rw [hsome₁, hI.pools, hC]
        omega
    · -- the pages: the old free ones, then the new ones
      dsimp only
      rw [hflatT]
      split_ifs with hin
      · rw [hnflat₁, hnt]
        split_ifs with hcl
        · simp only [Option.isSome_none, Bool.false_eq_true, false_iff]
          omega
        · rw [isSome_getElem?]
          omega
      · rw [hflat₁]
        split_ifs with hf
        · rw [hnt, isSome_getElem?]
          omega
        · rw [hI.slots]
          omega
    · intro i a hia
      rw [hT] at hia
      dsimp only at hia
      split_ifs at hia
      · exact hnnarrow₁ (narrow_newPools N pages) _ a hia
      · exact hnarrow₁ hI.narrow i a hia
  · -- the last `R` new pages fill the free slots, and the first ones are in
    -- the appended arrays
    have hRle : R ≤ pages.length := by omega
    have hbelow : stackOf (flat P T) pp.eppFreePages = freeStack P pp := stackOf_congr fun k hk => by
      rw [hflatT, if_neg (by omega), hflat₁, if_neg (by omega)]
    have hfilled : stackOf (fun j => flat P T (pp.eppFreePages + j)) R =
        (pages.drop (pages.length - R) : Multiset Page) := by
      rw [← stackOf_getElem_rev pages hRle]
      exact stackOf_congr fun j hj => by
        rw [hflatT, if_neg (by omega), hflat₁, if_pos (by omega), hnt]
        congr 1
        omega
    have happended : stackOf (fun j => flat P T (pp.eppFreePages + (R + j))) (pages.length - R) =
        (pages.take (pages.length - R) : Multiset Page) := by
      rw [← stackOf_getElem]
      exact stackOf_congr fun j hj => by
        rw [hflatT, if_pos (by omega), hnflat₁, if_neg (by omega), hnt]
        congr 1
        omega
    have hsplit : stackOf (fun j => flat P T (pp.eppFreePages + j)) pages.length =
        stackOf (fun j => flat P T (pp.eppFreePages + j)) R +
          stackOf (fun j => flat P T (pp.eppFreePages + (R + j))) (pages.length - R) := by
      rw [← stackOf_add, Nat.add_sub_cancel' hRle]
    show stackOf (flat P T) (pp.eppFreePages + pages.length) = _
    rw [stackOf_add, hbelow, hsplit, hfilled, happended, Multiset.add_comm (pages.drop _ : Multiset Page),
      Multiset.coe_add, List.take_append_drop]
  · -- what is left in the new arrays lies past the new pages
    rw [hN]
    unfold encPoolsCleanup
    rw [List.flatMap_eq_nil_iff]
    intro i hi
    rw [List.mem_range] at hi
    dsimp only
    split_ifs with hi'
    · rfl
    · cases hnt₁ : nt₁ i with
      | none => rfl
      | some a =>
        dsimp only
        rw [List.filterMap_eq_nil_iff]
        intro g hg
        rw [List.mem_range] at hg
        have hflat := flat_mul_add hP nt₁ i hg
        rw [hnt₁, Option.bind_some] at hflat
        rw [← hflat, hnflat₁, hnt]
        split_ifs with hcl
        · rfl
        · rw [List.getElem?_eq_none]
          have h1 : (E - C) * P ≤ i * P := Nat.mul_le_mul_right P (by omega)
          rw [Nat.sub_mul] at h1
          omega

/-- `enc_pools_add_pages(npages)` on a pool below `epp_max_pages`: the
request raised to `PTLRPC_MAX_BRW_PAGES` and cut to what fits; when the
allocator runs out first, what it gave is freed again and the pool stays,
else the pages it gave go on the free stack. -/
theorem encPoolsAddPages_spec (hP : 0 < P) (hI : PoolInv P pp) (hlt : pp.eppTotalPages < pp.eppMaxPages)
    {maxBrw : Nat} (hbrw : 0 < maxBrw) (npages : Nat) (supply : List Page) :
    ∃ rc pp' alloced freed, encPoolsAddPages P maxBrw pp npages supply = some (rc, pp', alloced, freed) ∧
      PoolInv P pp' ∧ freeStack P pp' + freed = freeStack P pp + alloced ∧ alloced.Sublist supply ∧
      pp'.eppTotalPages - pp'.eppFreePages = pp.eppTotalPages - pp.eppFreePages := by
  obtain ⟨n, hn⟩ : ∃ n, (if max npages maxBrw + pp.eppTotalPages > pp.eppMaxPages then
      pp.eppMaxPages - pp.eppTotalPages else max npages maxBrw) = n := ⟨_, rfl⟩
  have hn0 : n ≠ 0 := by
    rw [← hn]
    split_ifs <;> omega
  have hfit : pp.eppTotalPages + n ≤ pp.eppMaxPages := by
    rw [← hn]
    split_ifs <;> omega
  by_cases hshort : supply.length < n
  · -- an allocation failed
    refine ⟨-enomem, pp, supply, supply, ?_, hI, rfl, List.Sublist.refl _, rfl⟩
    simp only [encPoolsAddPages, hn, if_neg hn0, if_pos hshort]
  · have hlen : (supply.take n).length = n := List.length_take_of_le (by omega)
    obtain ⟨pp', nt', hins, hI', hstack, htotal, hfree, hclean⟩ :=
      encPoolsInsert_spec hP hI (show 0 < (supply.take n).length by omega)
        (show pp.eppTotalPages + (supply.take n).length ≤ pp.eppMaxPages by omega)
    rw [hlen] at hins hclean
    refine ⟨0, pp', supply.take n, [], ?_, hI', by rw [hstack, Multiset.coe_nil, add_zero],
      List.take_sublist _ _, by omega⟩
    simp only [encPoolsAddPages, hn, if_neg hn0, if_neg hshort, hins, hclean, Option.map_some]

end Shape

/-! ## The pool and its callers -/

/-- The pool, and the descriptors its callers pass it, by name. -/
structure EncPoolState (D Page : Type) where
  pool : PtlrpcEncPagePool Page
  descs : D → PtlrpcBulkDesc Page

/-- A call on the pool: `sptlrpc_enc_pool_get_pages` of a descriptor, with
whether allocating its `bd_enc_vec` succeeds and whether another thread is
growing the pools; `sptlrpc_enc_pool_put_pages` of one;
`enc_pools_add_pages` with the pages the allocator hands out; and
`enc_pools_shrink_scan`. -/
inductive EncPoolOp (D Page : Type)
  | getPages (d : D) (allocOk growing : Bool)
  | putPages (d : D)
  | addPages (npages : Nat) (supply : List Page)
  | shrinkScan (nrToScan : Nat)

section Callers

variable {D : Type} [DecidableEq D]

/-- One call, with the pages it allocated and the pages it freed. -/
def encPoolStep (P maxBrw : Nat) (st : EncPoolState D Page) :
    EncPoolOp D Page → Option ((List Page × List Page) × EncPoolState D Page)
  | .getPages d allocOk growing =>
    (sptlrpcEncPoolGetPages P st.pool (st.descs d) allocOk growing).map fun r =>
      (([], []), ⟨r.2.1, Function.update st.descs d r.2.2⟩)
  | .putPages d =>
    (sptlrpcEncPoolPutPages P st.pool (st.descs d)).map fun r => (([], []), ⟨r.1, Function.update st.descs d r.2⟩)
  | .addPages npages supply =>
    (encPoolsAddPages P maxBrw st.pool npages supply).map fun r => ((r.2.2.1, r.2.2.2), { st with pool := r.2.1 })
  | .shrinkScan nrToScan =>
    (encPoolsShrinkScan P maxBrw st.pool nrToScan).map fun r => (([], r.2.2), { st with pool := r.1 })

variable [Fintype D]

/-- The pages the outstanding descriptors hold. -/
def heldPages (st : EncPoolState D Page) : Multiset Page :=
  ∑ d, ((st.descs d).bdEncVec.getD [] : Multiset Page)

/-- The pages the pool owns: the free ones and those the descriptors hold. -/
def ownedPages (P : Nat) (st : EncPoolState D Page) : Multiset Page :=
  freeStack P st.pool + heldPages st

/-- The pool's shape, each outstanding descriptor holding `bd_iov_count`
pages, as many held in all as the pool has rented out, and no page owned
twice. -/
structure EncInv (P : Nat) (st : EncPoolState D Page) : Prop where
  pool : PoolInv P st.pool
  descs : ∀ d vec, (st.descs d).bdEncVec = some vec →
    vec.length = (st.descs d).bdIovCount ∧ 0 < (st.descs d).bdIovCount
  held : Multiset.card (heldPages st) = st.pool.eppTotalPages - st.pool.eppFreePages
  nodup : (ownedPages P st).Nodup

/-- The calls the callers make: `get_pages` of a descriptor of `0 <
bd_iov_count <= epp_max_pages` pages, growth only below `epp_max_pages`
(`enc_pools_should_grow` and `sptlrpc_enc_pool_add_user` see to it), with
distinct pages the pool does not own. -/
def EncAllowed (P : Nat) (st : EncPoolState D Page) : EncPoolOp D Page → Prop
  | .getPages d _ _ => 0 < (st.descs d).bdIovCount ∧ (st.descs d).bdIovCount ≤ st.pool.eppMaxPages
  | .putPages _ => True
  | .addPages _ supply => st.pool.eppTotalPages < st.pool.eppMaxPages ∧ supply.Nodup ∧
      ∀ pg ∈ supply, pg ∉ ownedPages P st
  | .shrinkScan _ => True

/-- `sptlrpc_enc_pool_init`: no pages and no pool arrays, and no
descriptor holding pages. -/
def EncStart (P : Nat) (st : EncPoolState D Page) : Prop :=
  st.pool.eppTotalPages = 0 ∧ st.pool.eppFreePages = 0 ∧
    st.pool.eppMaxPools = npagesToNpools P st.pool.eppMaxPages ∧ (∀ i, st.pool.eppPools i = none) ∧
    ∀ d, (st.descs d).bdEncVec = none

/-- A descriptor changing what it holds changes the held pages by that. -/
theorem heldPages_update (st : EncPoolState D Page) (pool : PtlrpcEncPagePool Page) (d : D)
    (desc : PtlrpcBulkDesc Page) :
    heldPages ⟨pool, Function.update st.descs d desc⟩ + ((st.descs d).bdEncVec.getD [] : Multiset Page) =
      heldPages st + (desc.bdEncVec.getD [] : Multiset Page) := by
  have hcomp : (fun x => ((Function.update st.descs d desc x).bdEncVec.getD [] : Multiset Page)) =
      Function.update (fun x => ((st.descs x).bdEncVec.getD [] : Multiset Page)) d
        ((desc.bdEncVec.getD [] : Multiset Page)) := by
    funext x
    by_cases hx : x = d
    · subst hx
      simp
    · simp [Function.update_of_ne hx]
  unfold heldPages
  dsimp only
  rw [hcomp]
  exact Waiters.sum_update_add _ d _

omit [DecidableEq D] in
theorem EncInv.start (hP : 0 < P) {st : EncPoolState D Page} (hs : EncStart P st) : EncInv P st := by
  obtain ⟨htotal, hfree, hmax, hpools, hdescs⟩ := hs
  have hheld : heldPages st = 0 := by
    unfold heldPages
    simp [hdescs]
  refine ⟨⟨by omega, by omega, hmax, fun i => ?_, fun k => ?_, fun i a h => ?_⟩, fun d vec h => ?_, ?_, ?_⟩
  · rw [hpools, htotal, npagesToNpools_zero hP]
    simp
  · rw [flat, hpools, hfree]
    simp
  · rw [hpools] at h
    exact absurd h (by simp)
  · rw [hdescs] at h
    exact absurd h (by simp)
  · rw [hheld, htotal, hfree]
    rfl
  · rw [ownedPages, hheld, freeStack, hfree, stackOf_zero]
    exact Multiset.nodup_zero

/-! ### One call -/

section Step

variable {maxBrw : Nat} {st : EncPoolState D Page}

/-- `sptlrpc_enc_pool_get_pages`: the pages it takes leave the free stack
for the descriptor, and nothing else changes. -/
theorem EncInv.getPages (hP : 0 < P) (hI : EncInv P st) {d : D} {allocOk growing : Bool}
    (hop : EncAllowed P st (.getPages d allocOk growing)) :
    ∃ r st', encPoolStep P maxBrw st (.getPages d allocOk growing) = some (r, st') ∧ EncInv P st' ∧
      ownedPages P st' + r.2 = ownedPages P st + r.1 := by
  by_cases htake : (st.descs d).bdEncVec = none ∧ allocOk = true ∧ (st.descs d).bdIovCount ≤ st.pool.eppFreePages
  · obtain ⟨hvec, rfl, hfree⟩ := htake
    obtain ⟨pp', vec, hget, hI', hlen, hstack, htotal, hfree'⟩ :=
      sptlrpcEncPoolGetPages_take hP hI.pool hop hvec hfree growing
    have hheld := heldPages_update st pp' d { st.descs d with bdEncVec := some vec }
    rw [hvec, Option.getD_none, Multiset.coe_nil, add_zero, Option.getD_some] at hheld
    -- the pages moved from the stack to the descriptor
    have howned : ownedPages P ⟨pp', Function.update st.descs d { st.descs d with bdEncVec := some vec }⟩ =
        ownedPages P st := by
      rw [ownedPages, ownedPages, hheld, ← hstack]
      ac_rfl
    refine ⟨([], []), _, by simp only [encPoolStep, hget, Option.map_some], ⟨hI', fun d' v hv => ?_, ?_,
      howned ▸ hI.nodup⟩,
      by rw [howned]⟩
    · dsimp only at hv ⊢
      by_cases hd : d' = d
      · subst hd
        rw [Function.update_self] at hv ⊢
        rw [← Option.some.inj hv]
        exact ⟨hlen, hop.1⟩
      · rw [Function.update_of_ne hd] at hv ⊢
        exact hI.descs d' v hv
    · have := hI.held
      have := hI.pool.free_le
      rw [hheld, Multiset.card_add, Multiset.coe_card, htotal, hfree', hlen]
      omega
  · -- a resent bulk, no `bd_enc_vec`, or too few free pages: nothing changes
    have h : (st.descs d).bdEncVec.isSome ∨ allocOk = false ∨ st.pool.eppFreePages < (st.descs d).bdIovCount := by
      by_cases hv : (st.descs d).bdEncVec = none
      · by_cases ha : allocOk = true
        · exact Or.inr (Or.inr (not_le.1 fun hle => htake ⟨hv, ha, hle⟩))
        · exact Or.inr (Or.inl (by simpa using ha))
      · exact Or.inl (Option.isSome_iff_ne_none.2 hv)
    obtain ⟨rc, hget⟩ := sptlrpcEncPoolGetPages_of_not_take (P := P) growing hop h
    exact ⟨([], []), st, by simp only [encPoolStep, hget, Option.map_some, Function.update_eq_self], hI, rfl⟩

/-- `sptlrpc_enc_pool_put_pages`: the descriptor's pages go back on the
free stack. -/
theorem EncInv.putPages (hP : 0 < P) (hI : EncInv P st) (d : D) :
    ∃ r st', encPoolStep P maxBrw st (.putPages d) = some (r, st') ∧ EncInv P st' ∧
      ownedPages P st' + r.2 = ownedPages P st + r.1 := by
  cases hvec : (st.descs d).bdEncVec with
  | none =>
    refine ⟨([], []), st, ?_, hI, rfl⟩
    simp only [encPoolStep, sptlrpcEncPoolPutPages, hvec, Option.map_some, Function.update_eq_self]
  | some vec =>
    obtain ⟨hlen, hpos⟩ := hI.descs d vec hvec
    have hheld := heldPages_update st st.pool d { st.descs d with bdEncVec := none }
    rw [hvec, Option.getD_none, Multiset.coe_nil, add_zero, Option.getD_some] at hheld
    -- the descriptor's pages are among the rented ones
    have hroom : st.pool.eppFreePages + (st.descs d).bdIovCount ≤ st.pool.eppTotalPages := by
      have hcard := congrArg Multiset.card hheld
      rw [Multiset.card_add, Multiset.coe_card, hI.held] at hcard
      have := hI.pool.free_le
      omega
    obtain ⟨pp', hput, hI', hstack, htotal, hfree⟩ := sptlrpcEncPoolPutPages_spec hP hI.pool hvec hlen hpos hroom
    have howned : ownedPages P ⟨pp', Function.update st.descs d { st.descs d with bdEncVec := none }⟩ =
        ownedPages P st := by
      rw [ownedPages, ownedPages, ← hheld, hstack]
      change freeStack P st.pool + ↑vec + heldPages ⟨st.pool, _⟩ = _
      ac_rfl
    refine ⟨([], []), _, by simp only [encPoolStep, hput, Option.map_some], ⟨hI', fun d' v hv => ?_, ?_,
      howned ▸ hI.nodup⟩,
      by rw [howned]⟩
    · dsimp only at hv ⊢
      by_cases hd : d' = d
      · subst hd
        rw [Function.update_self] at hv
        exact absurd hv (by simp)
      · rw [Function.update_of_ne hd] at hv ⊢
        exact hI.descs d' v hv
    · have hcard := congrArg Multiset.card hheld
      rw [Multiset.card_add, Multiset.coe_card, hI.held] at hcard
      change Multiset.card (heldPages ⟨st.pool, _⟩) = _
      rw [htotal, hfree]
      omega

/-- `enc_pools_add_pages`: the pool owns the pages it got and not those it
freed again. -/
theorem EncInv.addPages (hP : 0 < P) (hbrw : 0 < maxBrw) (hI : EncInv P st) {npages : Nat} {supply : List Page}
    (hop : EncAllowed P st (.addPages npages supply)) :
    ∃ r st', encPoolStep P maxBrw st (.addPages npages supply) = some (r, st') ∧ EncInv P st' ∧
      ownedPages P st' + r.2 = ownedPages P st + r.1 := by
  obtain ⟨hlt, hnd, hfresh⟩ := hop
  obtain ⟨rc, pp', alloced, freed, hadd, hI', hstack, hsub, hcount⟩ :=
    encPoolsAddPages_spec hP hI.pool hlt hbrw npages supply
  have howned : ownedPages P { st with pool := pp' } + freed = ownedPages P st + alloced := by
    rw [ownedPages, ownedPages]
    change freeStack P pp' + heldPages st + _ = _
    rw [add_right_comm, hstack]
    ac_rfl
  -- the pages allocated are fresh and distinct
  have hnodup : (ownedPages P st + alloced).Nodup := by
    refine Multiset.nodup_add.2 ⟨hI.nodup, Multiset.coe_nodup.2 (hsub.nodup hnd), ?_⟩
    exact Multiset.disjoint_left.2 fun ha hb => hfresh _ (hsub.subset hb) ha
  refine ⟨(alloced, freed), { st with pool := pp' }, by simp only [encPoolStep, hadd, Option.map_some],
    ⟨hI', hI.descs, ?_, ?_⟩, howned⟩
  · change Multiset.card (heldPages st) = _
    rw [hI.held, hcount]
  · exact Multiset.nodup_of_le (Multiset.le_add_right _ _) (howned ▸ hnodup)

/-- `enc_pools_shrink_scan`: the pool owns no more the pages it freed. -/
theorem EncInv.shrinkScan (hP : 0 < P) (hI : EncInv P st) (nrToScan : Nat) :
    ∃ r st', encPoolStep P maxBrw st (.shrinkScan nrToScan) = some (r, st') ∧ EncInv P st' ∧
      ownedPages P st' + r.2 = ownedPages P st + r.1 := by
  obtain ⟨pp', nr, freed, hshrink, hI', hstack, hcount, -⟩ := encPoolsShrinkScan_spec hP hI.pool maxBrw nrToScan
  have howned : ownedPages P { st with pool := pp' } + freed = ownedPages P st := by
    rw [ownedPages, ownedPages]
    change freeStack P pp' + heldPages st + _ = _
    rw [add_right_comm, hstack]
  refine ⟨([], freed), { st with pool := pp' }, by simp only [encPoolStep, hshrink, Option.map_some],
    ⟨hI', hI.descs, ?_, ?_⟩, ?_⟩
  · change Multiset.card (heldPages st) = _
    rw [hI.held, hcount]
  · exact Multiset.nodup_of_le (Multiset.le_add_right _ _) (howned ▸ hI.nodup)
  · rw [howned, Multiset.coe_nil, add_zero]

/-- Every admitted call returns, keeps `EncInv`, and changes the pages the
pool owns by those it allocated and those it freed. -/
theorem encPoolStep_spec (hP : 0 < P) (hbrw : 0 < maxBrw) (hI : EncInv P st) {op : EncPoolOp D Page}
    (hop : EncAllowed P st op) :
    ∃ r st', encPoolStep P maxBrw st op = some (r, st') ∧ EncInv P st' ∧
      ownedPages P st' + r.2 = ownedPages P st + r.1 := by
  cases op with
  | getPages d allocOk growing => exact hI.getPages hP hop
  | putPages d => exact hI.putPages hP d
  | addPages npages supply => exact hI.addPages hP hbrw hop
  | shrinkScan nrToScan => exact hI.shrinkScan hP nrToScan

/-- Every state a run of admitted calls reaches from `sptlrpc_enc_pool_init`
keeps `EncInv`. -/
theorem EncInv.of_reachable (hP : 0 < P) (hbrw : 0 < maxBrw)
    (hst : StepRun.Reachable (encPoolStep P maxBrw) (EncAllowed P) (EncStart P) st) : EncInv P st := by
  refine StepRun.Reachable.inv _ _ (P := EncInv P) (fun _ hs => EncInv.start hP hs) ?_ hst
  intro s op r s' hop hI hstep
  obtain ⟨r', s'', h, hI', -⟩ := encPoolStep_spec hP hbrw hI hop
  rw [hstep, Option.some.injEq, Prod.mk.injEq] at h
  rw [h.2]
  exact hI'

/-- From `sptlrpc_enc_pool_init`, through any sequence of admitted calls,
each call returns without a fault (no index past `epp_max_pools` arrays of
`P` slots), the counts stay in order, the arrays are there exactly below
`ceil(epp_total_pages / P)`, the free pages are the slots below
`epp_free_pages`, no page is owned twice, the descriptors hold the rented
pages, and a call changes the pages owned by exactly those it allocated and
those it freed. -/
theorem enc_pool_pages_kept (hP : 0 < P) (hbrw : 0 < maxBrw)
    (hst : StepRun.Reachable (encPoolStep P maxBrw) (EncAllowed P) (EncStart P) st) {op : EncPoolOp D Page}
    (hop : EncAllowed P st op) :
    ∃ r st', encPoolStep P maxBrw st op = some (r, st') ∧
      st'.pool.eppFreePages ≤ st'.pool.eppTotalPages ∧ st'.pool.eppTotalPages ≤ st'.pool.eppMaxPages ∧
      (∀ i, (st'.pool.eppPools i).isSome ↔ i < npagesToNpools P st'.pool.eppTotalPages) ∧
      (∀ k, (flat P st'.pool.eppPools k).isSome ↔ k < st'.pool.eppFreePages) ∧
      (ownedPages P st').Nodup ∧ ownedPages P st' + r.2 = ownedPages P st + r.1 ∧
      Multiset.card (heldPages st') = st'.pool.eppTotalPages - st'.pool.eppFreePages ∧
      npagesToNpools P st'.pool.eppTotalPages ≤ st'.pool.eppMaxPools := by
  obtain ⟨r, st', hstep, hI', howned⟩ := encPoolStep_spec hP hbrw (EncInv.of_reachable hP hbrw hst) hop
  have hpools : npagesToNpools P st'.pool.eppTotalPages ≤ st'.pool.eppMaxPools := by
    rw [hI'.pool.max_pools]
    exact npagesToNpools_mono hI'.pool.total_le
  exact ⟨r, st', hstep, hI'.pool.free_le, hI'.pool.total_le, hI'.pool.pools, hI'.pool.slots, hI'.nodup, howned,
    hI'.held, hpools⟩

/-- Growth from an empty pool of four pages, two to an array: three pages
go in, in two arrays, all free. -/
theorem enc_pool_first_growth :
    ∃ r st', encPoolStep 2 1 (⟨⟨4, 2, 0, 0, fun _ => none⟩, fun _ => ⟨1, none⟩⟩ : EncPoolState Unit Nat)
        (.addPages 3 [10, 11, 12]) = some (r, st') ∧
      st'.pool.eppFreePages ≤ st'.pool.eppTotalPages ∧ st'.pool.eppTotalPages ≤ st'.pool.eppMaxPages ∧
      (∀ i, (st'.pool.eppPools i).isSome ↔ i < npagesToNpools 2 st'.pool.eppTotalPages) ∧
      (∀ k, (flat 2 st'.pool.eppPools k).isSome ↔ k < st'.pool.eppFreePages) ∧
      (ownedPages 2 st').Nodup ∧
      ownedPages 2 st' + r.2 = ownedPages 2 (⟨⟨4, 2, 0, 0, fun _ => none⟩, fun _ => ⟨1, none⟩⟩ : EncPoolState Unit Nat) + r.1 ∧
      Multiset.card (heldPages st') = st'.pool.eppTotalPages - st'.pool.eppFreePages ∧
      npagesToNpools 2 st'.pool.eppTotalPages ≤ st'.pool.eppMaxPools :=
  enc_pool_pages_kept (by decide) (by decide) (.start ⟨rfl, rfl, rfl, fun _ => rfl, fun _ => rfl⟩)
    ⟨by decide, by decide, by simp [ownedPages, heldPages, freeStack]⟩

end Step

end Callers

end Lustre.Ptlrpc
