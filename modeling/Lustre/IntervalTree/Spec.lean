import Mathlib
import Lustre.IntervalTree

/-! # Searching and expanding the interval tree

The representation invariant (`IntervalTreeInv`): the nodes are in the
order of `extent_compare`, every `in_max_high` is the highest end below it as
`__rotate_change_maxhigh` computes it, and every extent is nonempty, as
`interval_set` makes it. Parent pointers agree with child pointers by the
construction of `BinTree.Pos`.

* `interval_search` walks the tree with parent pointers and calls its
  callback on the nodes the recursive search of its comment meets, in that
  order (`intervalSearch_eq`): what is left of the walk at each node is what
  is left of the recursive search (`searchTodo_eq`), as long as every node the
  walk went left from is one the recursive search goes left from
  (`Reachable`). The recursive search meets exactly the nodes the extent
  overlaps, in preorder (`searchRec_eq_filter`).
* `interval_expand_high` finds the lowest start past the extent's end, less
  one (`expandHighLoop_spec`).
-/

namespace Lustre.IntervalTree

open BinTree BinTree.Tree

variable {α σ : Type}

/-! ## The representation invariant -/

/-- The order of the tree: `extent_compare(a, b) < 0`. -/
def ExtentLt (a b : IntervalNode α) : Prop := extentCompare a.inExtent b.inExtent = -1

/-- The order of starts, all that searching and expanding rely on. -/
def StartLe (a b : IntervalNode α) : Prop := intervalLow a ≤ intervalLow b

/-- `in_max_high` of a subtree, and `0` for a missing one, as
`__rotate_change_maxhigh` reads it. -/
def maxHigh : BinTree.Tree (IntervalNode α) → UInt64
  | .nil => 0
  | .node _ a _ => a.inMaxHigh

/-- Every `in_max_high` is `max3` of the node's end and its children's. -/
def MaxHighExact : BinTree.Tree (IntervalNode α) → Prop
  | .nil => True
  | .node l a r => MaxHighExact l ∧ MaxHighExact r ∧ a.inMaxHigh = max (max (intervalHigh a) (maxHigh l)) (maxHigh r)

/-- The representation invariant of an interval tree. -/
structure IntervalTreeInv (t : BinTree.Tree (IntervalNode α)) : Prop where
  ordered : Ordered ExtentLt t
  maxHighExact : MaxHighExact t
  valid : ∀ n ∈ t, intervalLow n ≤ intervalHigh n

theorem extentCompare_eq_neg_one_iff (e1 e2 : IntervalNodeExtent) :
    extentCompare e1 e2 = -1 ↔ e1.start < e2.start ∨ (e1.start = e2.start ∧ e1.end_ < e2.end_) := by
  unfold extentCompare
  by_cases hs : e1.start = e2.start
  · rw [if_pos hs]
    split_ifs with h1 h2
    · exact iff_of_true rfl (Or.inr ⟨hs, h1⟩)
    · refine iff_of_false (by decide) ?_
      rintro (h | ⟨-, h⟩)
      · exact UInt64.lt_irrefl _ (hs ▸ h)
      · exact h1 h
    · refine iff_of_false (by decide) ?_
      rintro (h | ⟨-, h⟩)
      · exact UInt64.lt_irrefl _ (hs ▸ h)
      · exact h1 h
  · rw [if_neg hs]
    split_ifs with h1
    · exact iff_of_true rfl (Or.inl h1)
    · exact iff_of_false (by decide) fun h => h.elim h1 fun h => hs h.1

instance : DecidableRel (ExtentLt (α := α)) := fun _ _ => inferInstanceAs (Decidable (_ = _))

instance : IsTrans (IntervalNode α) ExtentLt where
  trans a b c hab hbc := by
    unfold ExtentLt at *
    rw [extentCompare_eq_neg_one_iff] at *
    simp only [UInt64.lt_iff_toNat_lt, ← UInt64.toNat_inj] at *
    omega

instance : Std.Irrefl (ExtentLt (α := α)) where
  irrefl a h := by
    unfold ExtentLt at h
    rw [extentCompare_eq_neg_one_iff] at h
    rcases h with h | ⟨-, h⟩ <;> exact UInt64.lt_irrefl _ h

instance : IsTrans (IntervalNode α) StartLe where
  trans _ _ _ hab hbc := UInt64.le_trans hab hbc

theorem startLe_of_extentLt {a b : IntervalNode α} (h : ExtentLt a b) : StartLe a b := by
  unfold ExtentLt at h
  rw [extentCompare_eq_neg_one_iff] at h
  rcases h with h | ⟨h, -⟩
  · exact UInt64.le_of_lt h
  · exact UInt64.le_of_eq h

theorem IntervalTreeInv.startOrdered {t : BinTree.Tree (IntervalNode α)} (h : IntervalTreeInv t) : Ordered StartLe t :=
  h.ordered.mono fun _ _ => startLe_of_extentLt

instance decidableMaxHighExact : ∀ t : BinTree.Tree (IntervalNode α), Decidable (MaxHighExact t)
  | .nil => isTrue trivial
  | .node l _ r =>
    haveI := decidableMaxHighExact l
    haveI := decidableMaxHighExact r
    inferInstanceAs (Decidable (_ ∧ _ ∧ _))

instance (t : BinTree.Tree (IntervalNode α)) : Decidable (IntervalTreeInv t) :=
  decidable_of_iff (Ordered ExtentLt t ∧ MaxHighExact t ∧ ∀ n ∈ t, intervalLow n ≤ intervalHigh n)
    ⟨fun ⟨h1, h2, h3⟩ => ⟨h1, h2, h3⟩, fun h => ⟨h.1, h.2, h.3⟩⟩

/-- No end in a subtree is past its `in_max_high`. -/
theorem high_le_maxHigh : ∀ {t : BinTree.Tree (IntervalNode α)}, MaxHighExact t → ∀ x ∈ t, intervalHigh x ≤ maxHigh t
  | .nil, _, x, hx => absurd hx (not_mem_nil x)
  | .node l a r, ⟨hl, hr, ha⟩, x, hx => by
    have hle : ∀ y, y ≤ maxHigh l ∨ y ≤ maxHigh r ∨ y ≤ intervalHigh a → y ≤ maxHigh (.node l a r) := by
      intro y hy
      simp only [maxHigh, ha, UInt64.le_iff_toNat_le, UInt64.toNat_max] at hy ⊢
      omega
    rcases hx with rfl | hx | hx
    · exact hle _ (Or.inr (Or.inr (UInt64.le_refl _)))
    · exact hle _ (Or.inl (high_le_maxHigh hl x hx))
    · exact hle _ (Or.inr (Or.inl (high_le_maxHigh hr x hx)))

theorem not_overlapped_of_lt_low {ext : IntervalNodeExtent} {x : IntervalNode α} (h : ext.end_ < intervalLow x) :
    extentOverlapped ext x.inExtent = false := by
  unfold extentOverlapped intervalLow at *
  simp only [Bool.and_eq_false_iff, decide_eq_false_iff_not, UInt64.not_le]
  exact Or.inr h

theorem not_overlapped_of_high_lt {ext : IntervalNodeExtent} {x : IntervalNode α} (h : intervalHigh x < ext.start) :
    extentOverlapped ext x.inExtent = false := by
  unfold extentOverlapped intervalHigh at *
  simp only [Bool.and_eq_false_iff, decide_eq_false_iff_not, UInt64.not_le]
  exact Or.inl h

theorem not_lt_low_of_mayOverlap {ext : IntervalNodeExtent} {x : IntervalNode α} (h : intervalMayOverlap x ext = true) :
    ¬ ext.end_ < intervalLow x := by
  unfold intervalMayOverlap at h
  rw [Bool.and_eq_true, decide_eq_true_iff, decide_eq_true_iff] at h
  exact UInt64.not_lt.mpr h.2

/-! ## The recursive search -/

/-- The recursive search in the comment above `interval_search`, as the list
of nodes it calls `func` on. -/
def searchRec (ext : IntervalNodeExtent) : BinTree.Tree (IntervalNode α) → List (IntervalNode α)
  | .nil => []
  | .node l a r =>
    if ext.end_ < intervalLow a then searchRec ext l
    else if intervalMayOverlap a ext then
      (if extentOverlapped ext a.inExtent then [a] else []) ++ (searchRec ext l ++ searchRec ext r)
    else []

/-- The recursive search meets the nodes the extent overlaps, in preorder:
a node that starts past the extent has only such nodes on its right, and a
subtree whose `in_max_high` is below the extent has none. -/
theorem searchRec_eq_filter (ext : IntervalNodeExtent) :
    ∀ {t : BinTree.Tree (IntervalNode α)}, Ordered StartLe t → MaxHighExact t →
      searchRec ext t = t.preorder.filter fun n => extentOverlapped ext n.inExtent
  | .nil, _, _ => rfl
  | .node l a r, ⟨hl, hr, _, hgt⟩, hmax => by
    have ihl := searchRec_eq_filter ext hl hmax.1
    have ihr := searchRec_eq_filter ext hr hmax.2.1
    rw [searchRec, preorder_node, List.filter_cons, List.filter_append]
    by_cases h1 : ext.end_ < intervalLow a
    · -- the node and its right subtree start past the extent
      have hright : r.preorder.filter (fun n => extentOverlapped ext n.inExtent) = [] := by
        rw [List.filter_eq_nil_iff]
        intro x hx
        rw [mem_preorder] at hx
        rw [not_overlapped_of_lt_low (UInt64.lt_of_lt_of_le h1 (hgt x hx))]
        exact Bool.false_ne_true
      rw [if_pos h1, if_neg (by rw [not_overlapped_of_lt_low h1]; exact Bool.false_ne_true), hright,
        List.append_nil, ihl]
    · rw [if_neg h1]
      by_cases h2 : intervalMayOverlap a ext = true
      · rw [if_pos h2, ihl, ihr]
        by_cases h3 : extentOverlapped ext a.inExtent = true
        · rw [if_pos h3, if_pos h3, List.singleton_append]
        · rw [if_neg h3, if_neg h3, List.nil_append]
      · -- every end below the node is before the extent starts
        have hbelow : maxHigh (.node l a r) < ext.start := by
          unfold intervalMayOverlap at h2
          simp only [Bool.and_eq_true, decide_eq_true_iff, not_and] at h2
          exact UInt64.not_le.mp fun h => h2 h (UInt64.not_lt.mp h1)
        have hnone : ∀ x ∈ BinTree.Tree.node l a r, extentOverlapped ext x.inExtent = false := fun x hx =>
          not_overlapped_of_high_lt (UInt64.lt_of_le_of_lt (high_le_maxHigh hmax x hx) hbelow)
        rw [if_neg h2, if_neg (by rw [hnone a (Or.inl rfl)]; exact Bool.false_ne_true)]
        symm
        rw [List.append_eq_nil_iff, List.filter_eq_nil_iff, List.filter_eq_nil_iff]
        refine ⟨fun x hx => ?_, fun x hx => ?_⟩
        · rw [hnone x (Or.inr (Or.inl (mem_preorder.mp hx)))]
          exact Bool.false_ne_true
        · rw [hnone x (Or.inr (Or.inr (mem_preorder.mp hx)))]
          exact Bool.false_ne_true

/-! ## Callbacks -/

/-- What `func` does when it is called on the nodes of a list in turn until
it says `INTERVAL_ITER_STOP`, and the last verdict. -/
def runCallbacks (func : σ → IntervalNode α → σ × IntervalIter) :
    List (IntervalNode α) → σ → IntervalIter → σ × IntervalIter
  | [], data, rc => (data, rc)
  | n :: ns, data, _ =>
    match func data n with
    | (data', .stop) => (data', .stop)
    | (data', .cont) => runCallbacks func ns data' .cont

/-! ## The walk with parent pointers -/

/-- What the recursive search still meets after the subtree at the end of a
path: the right subtree of each ancestor the path goes left from, unless that
ancestor starts past the extent. -/
def searchRest (ext : IntervalNodeExtent) : List (Frame (IntervalNode α)) → List (IntervalNode α)
  | [] => []
  | .left pa pr :: up => (if ext.end_ < intervalLow pa then [] else searchRec ext pr) ++ searchRest ext up
  | .right _ _ :: up => searchRest ext up

/-- Every ancestor the path goes left from is one the search goes left from:
it starts past the extent or may overlap it. -/
def Reachable (ext : IntervalNodeExtent) : List (Frame (IntervalNode α)) → Prop
  | [] => True
  | .left pa _ :: up => (ext.end_ < intervalLow pa ∨ intervalMayOverlap pa ext = true) ∧ Reachable ext up
  | .right _ _ :: up => Reachable ext up

/-- What is left of the search at a node: its subtree, then what the
recursive search meets after it. -/
def searchTodo (ext : IntervalNodeExtent) (p : Pos (IntervalNode α)) : List (IntervalNode α) :=
  searchRec ext p.sub ++ searchRest ext p.up

/-- What is left of the search at a node, or nothing once it is over. -/
def searchTodoOpt (ext : IntervalNodeExtent) : Option (Pos (IntervalNode α)) → List (IntervalNode α)
  | none => []
  | some p => searchTodo ext p

/-- Everything after a subtree that starts past the extent gives nothing. -/
theorem searchRest_eq_nil {ext : IntervalNodeExtent} :
    ∀ {up : List (Frame (IntervalNode α))}, (∀ y ∈ after up, ext.end_ < intervalLow y) → searchRest ext up = []
  | [], _ => rfl
  | .left pa pr :: up, h => by
    rw [searchRest, if_pos (h pa (by simp)), List.nil_append]
    exact searchRest_eq_nil fun y hy => h y (by simp [hy])
  | .right _ _ :: up, h => by
    rw [searchRest]
    exact searchRest_eq_nil fun y hy => h y hy

/-- The climb leaves exactly what the recursive search still meets: it stops
at an ancestor that does not overlap only when that ancestor starts past the
extent, and then so does everything after it. -/
theorem searchTodoOpt_searchClimb (ext : IntervalNodeExtent) :
    ∀ (t : BinTree.Tree (IntervalNode α)) (up : List (Frame (IntervalNode α))), Ordered StartLe (plug t up) →
      Reachable ext up → searchTodoOpt ext (searchClimb ext t up) = searchRest ext up
  | _, [], _, _ => rfl
  | t, .left pa .nil :: up, hord, ⟨_, hreach⟩ => by
    rw [searchClimb, searchTodoOpt_searchClimb ext _ up hord hreach, searchRest, searchRec]
    split_ifs <;> rfl
  | t, .left pa (.node rl ra rr) :: up, hord, ⟨hpa, hreach⟩ => by
    by_cases hov : intervalMayOverlap pa ext = true
    · rw [searchClimb, if_pos hov, searchTodoOpt, searchTodo, searchRest, if_neg (not_lt_low_of_mayOverlap hov)]
      rfl
    · have hlt : ext.end_ < intervalLow pa := hpa.resolve_right hov
      have hup : Ordered StartLe (plug (.node t pa (.node rl ra rr)) up) := hord
      have hafter : ∀ y ∈ after up, ext.end_ < intervalLow y := fun y hy =>
        UInt64.lt_of_lt_of_le hlt (Ordered.lt_after hup pa (Or.inl rfl) y hy)
      rw [searchClimb, if_neg hov, searchRest, if_pos hlt, searchRest_eq_nil hafter]
      rfl
  | t, .right pl pa :: up, hord, hreach => by
    rw [searchClimb, searchTodoOpt_searchClimb ext _ up hord hreach, searchRest]

/-- The verdict of the loop body on whether it calls `func` at a node. -/
def searchCalls (ext : IntervalNodeExtent) (a : IntervalNode α) : Bool :=
  !(ext.end_ < intervalLow a) && intervalMayOverlap a ext && extentOverlapped ext a.inExtent

/-- One pass of the loop: what is left at a node is the node, if `func` is
called on it, and then what is left where the loop goes next. -/
theorem searchTodo_eq (ext : IntervalNodeExtent) (p : Pos (IntervalNode α)) (hord : Ordered StartLe p.tree)
    (hreach : Reachable ext p.up) :
    searchTodo ext p = (if searchCalls ext p.a then [p.a] else []) ++ searchTodoOpt ext (searchNext ext p) := by
  obtain ⟨l, a, r, up⟩ := p
  have hclimb := searchTodoOpt_searchClimb ext (.node l a r) up hord hreach
  unfold searchTodo
  simp only [Pos.sub] at hclimb ⊢
  by_cases h1 : ext.end_ < intervalLow a
  · -- past the extent: `func` is not called, and the search goes left only
    have hcall : searchCalls ext a = false := by simp [searchCalls, h1]
    rw [hcall, if_neg Bool.false_ne_true, List.nil_append, searchRec, if_pos h1]
    cases l with
    | nil =>
      rw [searchRec, List.nil_append, ← hclimb]
      simp only [searchNext, if_pos h1, Pos.sub]
    | node ll la lr =>
      simp only [searchNext, if_pos h1, searchTodoOpt, searchTodo, Pos.sub, searchRest, List.nil_append]
  · by_cases h2 : intervalMayOverlap a ext = true
    · -- may overlap: the node, then left, then right
      have hcall : searchCalls ext a = extentOverlapped ext a.inExtent := by simp [searchCalls, h1, h2]
      rw [hcall, searchRec, if_neg h1, if_pos h2, List.append_assoc]
      congr 1
      cases l with
      | node ll la lr =>
        simp only [searchNext, if_neg h1, if_pos h2, searchTodoOpt, searchTodo, Pos.sub, searchRest, List.append_assoc]
      | nil =>
        cases r with
        | node rl ra rr =>
          simp only [searchNext, if_neg h1, if_pos h2, searchTodoOpt, searchTodo, Pos.sub, searchRest, searchRec,
            List.nil_append]
        | nil =>
          simp only [searchRec, List.nil_append]
          rw [← hclimb]
          simp only [searchNext, if_neg h1, if_pos h2, Pos.sub]
    · -- neither: nothing below, and up
      have hcall : searchCalls ext a = false := by simp [searchCalls, h2]
      rw [hcall, if_neg Bool.false_ne_true, List.nil_append, searchRec, if_neg h1, if_neg h2, List.nil_append, ← hclimb]
      simp only [searchNext, if_neg h1, if_neg h2, Pos.sub]

/-- The climb stays in the tree, keeps the path reachable, and leaves at
most what was pending. -/
theorem searchClimb_some (ext : IntervalNodeExtent) :
    ∀ (t : BinTree.Tree (IntervalNode α)) (up : List (Frame (IntervalNode α))) (q : Pos (IntervalNode α)),
      searchClimb ext t up = some q →
        q.tree = plug t up ∧ (Reachable ext up → Reachable ext q.up) ∧ q.remaining ≤ pending up
  | _, [], _, h => nomatch h
  | t, .left pa .nil :: up, q, h => by
    obtain ⟨htree, hreach, hrem⟩ := searchClimb_some ext _ up q h
    refine ⟨htree, fun hr => hreach hr.2, ?_⟩
    rw [pending, size_nil, Nat.zero_add]
    exact hrem
  | t, .left pa (.node rl ra rr) :: up, q, h => by
    rw [searchClimb] at h
    split_ifs at h
    cases h
    refine ⟨rfl, fun hr => hr.2, ?_⟩
    simp only [Pos.remaining, Pos.sub, pending]
    exact le_rfl
  | t, .right pl pa :: up, q, h => by
    obtain ⟨htree, hreach, hrem⟩ := searchClimb_some ext _ up q h
    exact ⟨htree, hreach, hrem⟩

/-- The loop's move stays in the tree, keeps the path reachable, and leaves
less to pass. -/
theorem searchNext_some {ext : IntervalNodeExtent} {p q : Pos (IntervalNode α)} (h : searchNext ext p = some q) :
    q.tree = p.tree ∧ (Reachable ext p.up → Reachable ext q.up) ∧ q.remaining < p.remaining := by
  obtain ⟨l, a, r, up⟩ := p
  -- climbing from the node leaves at most what was pending above it
  have hclimb : searchClimb ext (.node l a r) up = some q →
      q.tree = plug (.node l a r) up ∧ (Reachable ext up → Reachable ext q.up) ∧ q.remaining < (Pos.mk l a r up).remaining := by
    intro hq
    obtain ⟨htree, hreach, hrem⟩ := searchClimb_some ext _ up q hq
    refine ⟨htree, hreach, ?_⟩
    simp only [Pos.remaining, Pos.sub, size_node] at hrem ⊢
    omega
  unfold searchNext at h
  simp only [Pos.sub] at h
  split_ifs at h with h1 h2
  · cases l with
    | nil => exact hclimb h
    | node ll la lr =>
      cases h
      refine ⟨rfl, fun hr => ⟨Or.inl h1, hr⟩, ?_⟩
      simp only [Pos.remaining, Pos.sub, pending, size_node]
      omega
  · cases l with
    | node ll la lr =>
      cases h
      refine ⟨rfl, fun hr => ⟨Or.inr h2, hr⟩, ?_⟩
      simp only [Pos.remaining, Pos.sub, pending, size_node]
      omega
    | nil =>
      cases r with
      | node rl ra rr =>
        cases h
        refine ⟨rfl, fun hr => hr, ?_⟩
        simp only [Pos.remaining, Pos.sub, pending, size_node, size_nil]
        omega
      | nil => exact hclimb h
  · exact hclimb h

/-- With enough passes, the loop calls `func` on what is left of the search
in order. The induction is on the passes; each pass is one step of
`searchTodo_eq`. -/
theorem searchLoop_eq (ext : IntervalNodeExtent) (func : σ → IntervalNode α → σ × IntervalIter) :
    ∀ (fuel : Nat) (p : Pos (IntervalNode α)) (data : σ) (rc : IntervalIter), p.remaining ≤ fuel →
      Ordered StartLe p.tree → Reachable ext p.up →
      searchLoop ext func fuel p data rc = runCallbacks func (searchTodo ext p) data rc
  | 0, p, _, _, hfuel, _, _ => by
    simp only [Pos.remaining, Pos.sub, size_node] at hfuel
    omega
  | fuel + 1, p, data, rc, hfuel, hord, hreach => by
    -- what follows the pass is the loop from the next node, if any
    have hnext : ∀ data rc, (match searchNext ext p with
        | none => (data, rc)
        | some q => searchLoop ext func fuel q data rc) =
          runCallbacks func (searchTodoOpt ext (searchNext ext p)) data rc := by
      intro data rc
      cases hq : searchNext ext p with
      | none => rfl
      | some q =>
        obtain ⟨htree, hreach', hlt⟩ := searchNext_some hq
        exact searchLoop_eq ext func fuel q data rc (by omega) (htree ▸ hord) (hreach' hreach)
    rw [searchTodo_eq ext p hord hreach, searchLoop]
    by_cases hcall : searchCalls ext p.a = true
    · rw [if_pos hcall, List.singleton_append, runCallbacks]
      unfold searchCalls at hcall
      rw [if_pos hcall]
      rcases func data p.a with ⟨data', _ | _⟩
      · exact hnext data' .cont
      · rfl
    · rw [if_neg hcall, List.nil_append]
      unfold searchCalls at hcall
      rw [if_neg hcall]
      exact hnext data rc

/-- `interval_search` calls `func` on the nodes the recursive search meets,
in order, on a tree in the order of starts. -/
theorem intervalSearch_eq {root : BinTree.Tree (IntervalNode α)} (hord : Ordered StartLe root) (ext : IntervalNodeExtent)
    (func : σ → IntervalNode α → σ × IntervalIter) (data : σ) :
    intervalSearch root ext func data = runCallbacks func (searchRec ext root) data .cont := by
  cases root with
  | nil => rfl
  | node l a r =>
    have hrun := searchLoop_eq ext func (BinTree.Tree.node l a r).size ⟨l, a, r, []⟩ data .cont
      (by simp [Pos.remaining, Pos.sub, pending]) hord trivial
    simp only [intervalSearch, rootPos]
    rw [hrun, searchTodo, searchRest, List.append_nil]
    rfl

/-- The overlap callback stops at the first node, with `1`. -/
theorem runCallbacks_overlapCb : ∀ (l : List (IntervalNode α)) (has : Int) (rc : IntervalIter),
    (runCallbacks intervalOverlapCb l has rc).1 = if l = [] then has else 1
  | [], _, _ => rfl
  | _ :: _, _, _ => rfl

/-- `interval_is_overlapped` finds an overlap exactly when there is one. -/
theorem intervalIsOverlapped_eq {root : BinTree.Tree (IntervalNode α)} (hord : Ordered StartLe root) (hmax : MaxHighExact root)
    (ext : IntervalNodeExtent) :
    intervalIsOverlapped root ext = if ∃ n ∈ root, extentOverlapped ext n.inExtent = true then 1 else 0 := by
  rw [intervalIsOverlapped, intervalSearch_eq hord, runCallbacks_overlapCb, searchRec_eq_filter ext hord hmax]
  by_cases h : ∃ n ∈ root, extentOverlapped ext n.inExtent = true
  · obtain ⟨n, hn, hov⟩ := h
    rw [if_neg, if_pos ⟨n, hn, hov⟩]
    exact List.ne_nil_of_mem (List.mem_filter.mpr ⟨mem_preorder.mpr hn, hov⟩)
  · rw [if_pos, if_neg h]
    rw [List.filter_eq_nil_iff]
    exact fun n hn hov => h ⟨n, mem_preorder.mp hn, hov⟩

/-! ## `interval_expand_high` -/

/-- What `interval_expand_high` finds below a node: with no start past
`high`, the result so far; otherwise the lowest start past `high`, less
one. -/
def ExpandHigh (high : UInt64) (t : BinTree.Tree (IntervalNode α)) (result out : UInt64) : Prop :=
  ((∀ n ∈ t, intervalLow n ≤ high) ∧ out = result) ∨
    ∃ n ∈ t, high < intervalLow n ∧ (∀ m ∈ t, high < intervalLow m → intervalLow n ≤ intervalLow m) ∧
      out = intervalLow n - 1

/-- The path of `interval_expand_high` finds the lowest start past `high`:
below a node whose ends stay below `high` nothing starts past it, left of a
node that starts past `high` every start is lower, and right of one that does
not, every start past `high` is. -/
theorem expandHighLoop_spec (high : UInt64) :
    ∀ (t : BinTree.Tree (IntervalNode α)) (result : UInt64), Ordered StartLe t → MaxHighExact t →
      (∀ n ∈ t, intervalLow n ≤ intervalHigh n) → ExpandHigh high t result (expandHighLoop high t result)
  | .nil, result, _, _, _ => Or.inl ⟨fun n hn => absurd hn (not_mem_nil n), rfl⟩
  | .node l a r, result, ⟨hl, hr, hlt, hgt⟩, hmax, hvalid => by
    have hvl : ∀ n ∈ l, intervalLow n ≤ intervalHigh n := fun n hn => hvalid n (Or.inr (Or.inl hn))
    have hvr : ∀ n ∈ r, intervalLow n ≤ intervalHigh n := fun n hn => hvalid n (Or.inr (Or.inr hn))
    rw [expandHighLoop]
    by_cases hA : a.inMaxHigh < high
    · -- every start is at most its end, at most the highest end, below `high`
      rw [if_pos hA]
      refine Or.inl ⟨fun n hn => ?_, rfl⟩
      have := UInt64.le_trans (hvalid n hn) (high_le_maxHigh hmax n hn)
      exact UInt64.le_of_lt (UInt64.lt_of_le_of_lt this hA)
    · rw [if_neg hA]
      by_cases hB : intervalLow a > high
      · rw [if_pos hB]
        rcases expandHighLoop_spec high l (intervalLow a - 1) hl hmax.1 hvl with ⟨hall, hout⟩ | ⟨n, hn, hnh, hmin, hout⟩
        · -- nothing on the left starts past `high`: the node is the lowest
          refine Or.inr ⟨a, Or.inl rfl, hB, fun m hm hmh => ?_, hout⟩
          rcases hm with rfl | hm | hm
          · exact UInt64.le_refl _
          · exact absurd (hall m hm) (UInt64.not_le.mpr hmh)
          · exact hgt m hm
        · refine Or.inr ⟨n, Or.inr (Or.inl hn), hnh, fun m hm hmh => ?_, hout⟩
          rcases hm with rfl | hm | hm
          · exact hlt n hn
          · exact hmin m hm hmh
          · exact UInt64.le_trans (hlt n hn) (hgt m hm)
      · -- the node and its left subtree start at most at `high`
        rw [if_neg hB]
        have hleft : ∀ m ∈ BinTree.Tree.node l a r, high < intervalLow m → m ∈ r := by
          intro m hm hmh
          rcases hm with rfl | hm | hm
          · exact absurd hmh hB
          · exact absurd (UInt64.lt_of_lt_of_le hmh (hlt m hm)) hB
          · exact hm
        rcases expandHighLoop_spec high r result hr hmax.2.1 hvr with ⟨hall, hout⟩ | ⟨n, hn, hnh, hmin, hout⟩
        · refine Or.inl ⟨fun m hm => ?_, hout⟩
          by_contra hmh
          exact absurd (hall m (hleft m hm (UInt64.not_le.mp hmh))) hmh
        · exact Or.inr ⟨n, Or.inr (Or.inr hn), hnh, fun m hm hmh => hmin m (hleft m hm hmh) hmh, hout⟩

/-! ## Searching and expanding -/

/-- A tree of three extents: `[0, 5]`, `[10, 20]` at the root, and
`[30, 50]`. -/
def threeExtents : BinTree.Tree (IntervalNode Unit) :=
  .node (.node .nil ⟨5, ⟨0, 5⟩, ()⟩ .nil) ⟨50, ⟨10, 20⟩, ()⟩ (.node .nil ⟨50, ⟨30, 50⟩, ()⟩ .nil)

/-- On a tree with the representation invariant, `interval_search` calls its
callback on the nodes the extent overlaps, in preorder and each once, until
the callback says `INTERVAL_ITER_STOP`; `interval_is_overlapped` is 1 exactly
when the extent overlaps a node, and 0 otherwise. -/
theorem interval_search_visits_overlapping (root : BinTree.Tree (IntervalNode α)) (hinv : IntervalTreeInv root)
    (ext : IntervalNodeExtent) :
    (∀ (func : σ → IntervalNode α → σ × IntervalIter) (data : σ),
      intervalSearch root ext func data =
        runCallbacks func (root.preorder.filter fun n => extentOverlapped ext n.inExtent) data .cont) ∧
    (root.preorder.filter fun n => extentOverlapped ext n.inExtent).Nodup ∧
    (∀ n, n ∈ root.preorder.filter (fun n => extentOverlapped ext n.inExtent) ↔
      n ∈ root ∧ extentOverlapped ext n.inExtent = true) ∧
    (intervalIsOverlapped root ext = 1 ↔ ∃ n ∈ root, extentOverlapped ext n.inExtent = true) ∧
    (intervalIsOverlapped root ext = 0 ↔ ¬ ∃ n ∈ root, extentOverlapped ext n.inExtent = true) := by
  have hord := hinv.startOrdered
  have hcount := intervalIsOverlapped_eq hord hinv.maxHighExact ext
  refine ⟨fun func data => ?_, hinv.ordered.nodup_preorder.filter _, fun n => ?_, ?_, ?_⟩
  · rw [intervalSearch_eq hord, searchRec_eq_filter ext hord hinv.maxHighExact]
  · rw [List.mem_filter, mem_preorder]
  · by_cases h : ∃ n ∈ root, extentOverlapped ext n.inExtent = true
    · rw [hcount, if_pos h]
      exact iff_of_true rfl h
    · rw [hcount, if_neg h]
      exact iff_of_false (by decide) h
  · by_cases h : ∃ n ∈ root, extentOverlapped ext n.inExtent = true
    · rw [hcount, if_pos h]
      exact iff_of_false (by decide) (not_not.mpr h)
    · rw [hcount, if_neg h]
      exact iff_of_true rfl h

/-- In the tree `[0, 5]`, `[10, 20]`, `[30, 50]`, the extent `[15, 35]`
overlaps a node. -/
theorem interval_search_three_extents :
    IntervalTreeInv threeExtents ∧
      (intervalIsOverlapped threeExtents ⟨15, 35⟩ = 1 ↔
        ∃ n ∈ threeExtents, extentOverlapped ⟨15, 35⟩ n.inExtent = true) :=
  ⟨by decide, ((interval_search_visits_overlapping (σ := Unit) threeExtents (by decide) ⟨15, 35⟩).2.2.2.1)⟩

example : (intervalSearch threeExtents ⟨15, 35⟩ (fun k n => (k ++ [n.inExtent.start], IntervalIter.cont)) []).1 =
    [10, 30] := by
  decide

/-- The end `interval_expand_high` finds is at least `high`, keeps the
extent clear of every node that starts past `high`, is `~0` when none does,
and is the lowest such start less one. -/
theorem intervalExpandHigh_spec {root : BinTree.Tree (IntervalNode α)} (hinv : IntervalTreeInv root) (high : UInt64) :
    high ≤ intervalExpandHigh root high ∧
      (∀ n ∈ root, high < intervalLow n → intervalExpandHigh root high < intervalLow n) ∧
      ((∀ n ∈ root, intervalLow n ≤ high) → intervalExpandHigh root high = ~~~0) ∧
      (∀ n ∈ root, high < intervalLow n → (∀ m ∈ root, high < intervalLow m → intervalLow n ≤ intervalLow m) →
        intervalExpandHigh root high = intervalLow n - 1) := by
  have heof : (~~~0 : UInt64).toNat = 2 ^ 64 - 1 := rfl
  rcases expandHighLoop_spec high root (~~~0) hinv.startOrdered hinv.maxHighExact hinv.valid with
    ⟨hall, hout⟩ | ⟨m, hm, hmh, hmin, hout⟩
  · -- no node starts past `high`: the end runs to `~0`
    refine ⟨?_, fun n hn hnh => absurd (hall n hn) (UInt64.not_le.mpr hnh), fun _ => hout,
      fun n hn hnh _ => absurd (hall n hn) (UInt64.not_le.mpr hnh)⟩
    rw [intervalExpandHigh, hout, UInt64.le_iff_toNat_le, heof]
    have := high.toNat_lt
    omega
  · -- the lowest start past `high` is `m`'s
    have hm1 : (intervalLow m - 1).toNat = (intervalLow m).toNat - 1 := by
      rw [UInt64.toNat_sub_of_le _ _ (by rw [UInt64.le_iff_toNat_le, UInt64.toNat_one]; rw [UInt64.lt_iff_toNat_lt] at hmh; omega),
        UInt64.toNat_one]
    rw [UInt64.lt_iff_toNat_lt] at hmh
    refine ⟨?_, fun n hn hnh => ?_, fun hall => absurd (hall m hm) (UInt64.not_le.mpr (UInt64.lt_iff_toNat_lt.mpr hmh)),
      fun n hn hnh hnmin => ?_⟩
    · rw [intervalExpandHigh, hout, UInt64.le_iff_toNat_le, hm1]
      omega
    · have hle := UInt64.le_iff_toNat_le.mp (hmin n hn hnh)
      rw [intervalExpandHigh, hout, UInt64.lt_iff_toNat_lt, hm1]
      omega
    · rw [intervalExpandHigh, hout, UInt64.le_antisymm (hmin n hn hnh) (hnmin m hm (UInt64.lt_iff_toNat_lt.mpr hmh))]

/-- On a tree with the representation invariant and an extent that overlaps
no node, `interval_expand` without a limiter starts the extent at `0` on an
empty tree and keeps its start otherwise, and ends it at the lowest start past
its end less one, or at `~0` when no node starts past it; the result still
overlaps no node and ends no earlier. -/
theorem interval_expand_to_next_start (root : BinTree.Tree (IntervalNode α)) (hinv : IntervalTreeInv root)
    (ext : IntervalNodeExtent) (hfree : ∀ n ∈ root, extentOverlapped ext n.inExtent = false) :
    ∃ ext', intervalExpand root ext none = some ext' ∧
      (root = .nil → ext'.start = 0) ∧ (root ≠ .nil → ext'.start = ext.start) ∧
      ext.end_ ≤ ext'.end_ ∧
      (∀ n ∈ root, extentOverlapped ext' n.inExtent = false) ∧
      ((∀ n ∈ root, intervalLow n ≤ ext.end_) → ext'.end_ = ~~~0) ∧
      (∀ n ∈ root, ext.end_ < intervalLow n → (∀ m ∈ root, ext.end_ < intervalLow m → intervalLow n ≤ intervalLow m) →
        ext'.end_ = intervalLow n - 1) := by
  have hord := hinv.startOrdered
  have hmax := hinv.maxHighExact
  obtain ⟨hge, hclear, hnone, hlow⟩ := intervalExpandHigh_spec hinv ext.end_
  -- the start stays where it was, except on an empty tree
  have hstart : root ≠ .nil → intervalExpandLow root ext.start = ext.start := by
    intro hne
    cases root with
    | nil => exact absurd rfl hne
    | node _ _ _ => rfl
  -- the expanded extent overlaps no node: each node ends before it starts or starts past its old end
  have hfree' : ∀ n ∈ root,
      extentOverlapped ⟨intervalExpandLow root ext.start, intervalExpandHigh root ext.end_⟩ n.inExtent = false := by
    intro n hn
    have hne : root ≠ .nil := by
      rintro rfl
      exact not_mem_nil n hn
    have hn' := hfree n hn
    unfold extentOverlapped at hn' ⊢
    rw [hstart hne]
    simp only [Bool.and_eq_false_iff, decide_eq_false_iff_not, UInt64.not_le] at hn' ⊢
    rcases hn' with h | h
    · exact Or.inl h
    · exact Or.inr (hclear n hn h)
  have hnot : ¬ ∃ n ∈ root, extentOverlapped ext n.inExtent = true := fun ⟨n, hn, h⟩ => by
    rw [hfree n hn] at h
    exact Bool.false_ne_true h
  have hnot' : ¬ ∃ n ∈ root,
      extentOverlapped ⟨intervalExpandLow root ext.start, intervalExpandHigh root ext.end_⟩ n.inExtent = true :=
    fun ⟨n, hn, h⟩ => by
      rw [hfree' n hn] at h
      exact Bool.false_ne_true h
  refine ⟨⟨intervalExpandLow root ext.start, intervalExpandHigh root ext.end_⟩, ?_, ?_, hstart, hge, hfree', hnone, hlow⟩
  · -- neither `LASSERT` fires
    unfold intervalExpand
    rw [intervalIsOverlapped_eq hord hmax, if_neg hnot]
    simp only [ne_eq, not_true_eq_false, if_false]
    rw [intervalIsOverlapped_eq hord hmax, if_neg hnot']
    rfl
  · rintro rfl
    rfl

/-- In the tree `[0, 5]`, `[10, 20]`, `[30, 50]`, the free extent
`[21, 25]` grows to end at `29`. -/
theorem interval_expand_three_extents :
    IntervalTreeInv threeExtents ∧ (∀ n ∈ threeExtents, extentOverlapped ⟨21, 25⟩ n.inExtent = false) ∧
      ∃ ext', intervalExpand threeExtents ⟨21, 25⟩ none = some ext' ∧
        (∀ n ∈ threeExtents, (25 : UInt64) < intervalLow n →
          (∀ m ∈ threeExtents, (25 : UInt64) < intervalLow m → intervalLow n ≤ intervalLow m) →
          ext'.end_ = intervalLow n - 1) := by
  obtain ⟨ext', h, -, -, -, -, -, hmin⟩ :=
    interval_expand_to_next_start threeExtents (by decide) ⟨21, 25⟩ (by decide)
  exact ⟨by decide, by decide, ext', h, hmin⟩

example : intervalExpand threeExtents ⟨21, 25⟩ none = some ⟨21, 29⟩ := by decide

end Lustre.IntervalTree
