import Mathlib
import Lustre.Lib.BinTree

/-! # The interval tree of extent locks

`lustre/obdclass/interval_tree.c` and `interval_tree.h`. A red-black tree of
closed extents ordered by `extent_compare`, whose nodes also keep
`in_max_high`, the highest end in their subtree. A node pointer with its
parent links is a `BinTree.Pos`.

The node's colour and `in_intree` are left out: searching, expanding and
iterating never read them. A node is embedded in a larger structure (`struct
ldlm_interval`, the group of locks with that extent); its `data` stands for
that structure. A callback takes its argument block `data` and returns it
with its verdict.

Loops that the C code runs until a pointer is `NULL` run here for at most as
many passes as the tree has nodes, which is never fewer than they need.
-/

namespace Lustre.IntervalTree

open BinTree

/-- `struct interval_node_extent`: the bytes `[start, end]`. -/
structure IntervalNodeExtent where
  start : UInt64
  end_ : UInt64
  deriving DecidableEq, Repr

/-- `struct interval_node`, with `data` for the structure it is embedded in. -/
structure IntervalNode (α : Type) where
  inMaxHigh : UInt64
  inExtent : IntervalNodeExtent
  data : α
  deriving DecidableEq, Repr

/-- `enum interval_iter`. -/
inductive IntervalIter where
  | cont
  | stop
  deriving DecidableEq, Repr

variable {α σ : Type}

/-- `extent_compare(e1, e2)`: by start, then by end. -/
def extentCompare (e1 e2 : IntervalNodeExtent) : Int :=
  if e1.start = e2.start then
    if e1.end_ < e2.end_ then -1
    else if e1.end_ > e2.end_ then 1
    else 0
  else if e1.start < e2.start then -1
  else 1

/-- `extent_overlapped(e1, e2)`. -/
def extentOverlapped (e1 e2 : IntervalNodeExtent) : Bool :=
  e1.start ≤ e2.end_ && e2.start ≤ e1.end_

/-- `interval_low(node)`. -/
def intervalLow (node : IntervalNode α) : UInt64 := node.inExtent.start

/-- `interval_high(node)`. -/
def intervalHigh (node : IntervalNode α) : UInt64 := node.inExtent.end_

/-- `interval_set(node, start, end)`: a fresh node, refused with `-ERANGE`
for an empty extent. -/
def intervalSet (start end_ : UInt64) (data : α) : Option (IntervalNode α) :=
  if start > end_ then none
  else some { inMaxHigh := end_, inExtent := ⟨start, end_⟩, data := data }

/-- `interval_may_overlap(node, ext)`: the subtree's ends reach the extent
and the node starts before it ends. -/
def intervalMayOverlap (node : IntervalNode α) (ext : IntervalNodeExtent) : Bool :=
  ext.start ≤ node.inMaxHigh && ext.end_ ≥ intervalLow node

/-! ## `interval_search` -/

/-- The climb of `interval_search` once the subtree at the end of a path is
done: up to the first ancestor it lies left of that has a right child, which
is next if that ancestor may overlap the extent; otherwise the search is
over. -/
def searchClimb (ext : IntervalNodeExtent) :
    BinTree.Tree (IntervalNode α) → List (Frame (IntervalNode α)) → Option (Pos (IntervalNode α))
  | _, [] => none
  | t, .left pa .nil :: up => searchClimb ext (.node t pa .nil) up
  | t, .left pa (.node rl ra rr) :: up =>
    if intervalMayOverlap pa ext then some ⟨rl, ra, rr, .right t pa :: up⟩ else none
  | t, .right pl pa :: up => searchClimb ext (.node pl pa t) up

/-- Where the loop of `interval_search` goes after a node: left of a node
that starts past the extent; left, else right, of a node that may overlap
it; and otherwise up. -/
def searchNext (ext : IntervalNodeExtent) (p : Pos (IntervalNode α)) : Option (Pos (IntervalNode α)) :=
  if ext.end_ < intervalLow p.a then
    match p.l with
    | .node ll la lr => some ⟨ll, la, lr, .left p.a p.r :: p.up⟩
    | .nil => searchClimb ext p.sub p.up
  else if intervalMayOverlap p.a ext then
    match p.l, p.r with
    | .node ll la lr, _ => some ⟨ll, la, lr, .left p.a p.r :: p.up⟩
    | .nil, .node rl ra rr => some ⟨rl, ra, rr, .right .nil p.a :: p.up⟩
    | .nil, .nil => searchClimb ext p.sub p.up
  else searchClimb ext p.sub p.up

/-- The loop of `interval_search` from node `p`, for at most `fuel` passes:
`func` is called on each node the extent overlaps in the branch that may
overlap, and the loop stops when it says `INTERVAL_ITER_STOP`. -/
def searchLoop (ext : IntervalNodeExtent) (func : σ → IntervalNode α → σ × IntervalIter) :
    Nat → Pos (IntervalNode α) → σ → IntervalIter → σ × IntervalIter
  | 0, _, data, rc => (data, rc)
  | fuel + 1, p, data, rc =>
    if !(ext.end_ < intervalLow p.a) && intervalMayOverlap p.a ext && extentOverlapped ext p.a.inExtent then
      match func data p.a with
      | (data', .stop) => (data', .stop)
      | (data', .cont) =>
        match searchNext ext p with
        | none => (data', .cont)
        | some q => searchLoop ext func fuel q data' .cont
    else
      match searchNext ext p with
      | none => (data, rc)
      | some q => searchLoop ext func fuel q data rc

/-- `interval_search(root, ext, func, data)`. -/
def intervalSearch (root : BinTree.Tree (IntervalNode α)) (ext : IntervalNodeExtent)
    (func : σ → IntervalNode α → σ × IntervalIter) (data : σ) : σ × IntervalIter :=
  match rootPos root with
  | none => (data, .cont)
  | some p => searchLoop ext func root.size p data .cont

/-- `interval_overlap_cb`: note the overlap and stop. -/
def intervalOverlapCb (_ : Int) (_ : IntervalNode α) : Int × IntervalIter := (1, .stop)

/-- `interval_is_overlapped(root, ext)`. -/
def intervalIsOverlapped (root : BinTree.Tree (IntervalNode α)) (ext : IntervalNodeExtent) : Int :=
  (intervalSearch root ext intervalOverlapCb 0).1

/-! ## `interval_expand` -/

/-- `interval_expand_low(root, low)`: only an empty tree lets the start drop
to `0`. -/
def intervalExpandLow (root : BinTree.Tree (IntervalNode α)) (low : UInt64) : UInt64 :=
  match root with
  | .nil => 0
  | .node _ _ _ => low

/-- The loop of `interval_expand_high` from `node` with the result so far:
one path down, to the left of every node that starts past `high`, keeping
that start less one. -/
def expandHighLoop (high : UInt64) : BinTree.Tree (IntervalNode α) → UInt64 → UInt64
  | .nil, result => result
  | .node l a r, result =>
    if a.inMaxHigh < high then result
    else if intervalLow a > high then expandHighLoop high l (intervalLow a - 1)
    else expandHighLoop high r result

/-- `interval_expand_high(node, high)`. -/
def intervalExpandHigh (node : BinTree.Tree (IntervalNode α)) (high : UInt64) : UInt64 :=
  expandHighLoop high node (~~~0)

/-- `interval_expand(root, ext, limiter)`, with `none` where one of its two
`LASSERT`s that the extent overlaps no node fails. -/
def intervalExpand (root : BinTree.Tree (IntervalNode α)) (ext : IntervalNodeExtent)
    (limiter : Option IntervalNodeExtent) : Option IntervalNodeExtent :=
  if intervalIsOverlapped root ext ≠ 0 then none
  else
    let start := match limiter with
      | some lim => if lim.start < ext.start then intervalExpandLow root ext.start else ext.start
      | none => intervalExpandLow root ext.start
    let end_ := match limiter with
      | some lim => if lim.end_ > ext.end_ then intervalExpandHigh root ext.end_ else ext.end_
      | none => intervalExpandHigh root ext.end_
    if intervalIsOverlapped root ⟨start, end_⟩ ≠ 0 then none
    else some ⟨start, end_⟩

/-! ## `interval_iterate_reverse` -/

/-- The loop of `interval_for_each_reverse` with the callback, for at most
`fuel` passes. -/
def iterateLoop (func : σ → IntervalNode α → σ × IntervalIter) :
    Nat → Option (Pos (IntervalNode α)) → σ → IntervalIter → σ × IntervalIter
  | 0, _, data, rc => (data, rc)
  | _ + 1, none, data, rc => (data, rc)
  | fuel + 1, some p, data, _ =>
    match func data p.a with
    | (data', .stop) => (data', .stop)
    | (data', .cont) => iterateLoop func fuel (prev p) data' .cont

/-- `interval_iterate_reverse(root, func, data)`: from `interval_last` back
along `interval_prev`. -/
def intervalIterateReverse (root : BinTree.Tree (IntervalNode α)) (func : σ → IntervalNode α → σ × IntervalIter)
    (data : σ) : σ × IntervalIter :=
  iterateLoop func root.size (last root []) data .cont

end Lustre.IntervalTree
