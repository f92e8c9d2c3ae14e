import Mathlib

/-! # Binary trees walked through parent pointers

A binary tree whose nodes carry data, and the pointer into it that C code
moves along child and parent links: a position is a node together with the
frames from it up to the root (a zipper). A frame says on which side of its
parent the node hangs and holds the parent and its other subtree, so parent
pointers always agree with child pointers.

* `Pos.tree` plugs a position back into the whole tree; `before` and
  `after` list what lies before and after the position's subtree in order.
* `last` and `prev` go to the rightmost node and to the in-order
  predecessor.
* `Ordered lt` is the search order. Along a path, every node of a
  position's subtree is below everything after it (`Ordered.lt_after`).

Nothing here refers to a particular program.
-/

namespace BinTree

/-- A binary tree with data at its nodes. -/
inductive Tree (α : Type) where
  | nil
  | node (l : Tree α) (a : α) (r : Tree α)
  deriving DecidableEq, Repr

namespace Tree

variable {α : Type}

/-- The data of a node of the tree. -/
def Mem (x : α) : Tree α → Prop
  | nil => False
  | node l a r => x = a ∨ Mem x l ∨ Mem x r

instance : Membership α (Tree α) where
  mem t x := Mem x t

@[simp] theorem not_mem_nil (x : α) : ¬ x ∈ (nil : Tree α) := id

@[simp] theorem mem_node {x a : α} {l r : Tree α} : x ∈ node l a r ↔ x = a ∨ x ∈ l ∨ x ∈ r := Iff.rfl

/-- The nodes in order: the left subtree, the node, the right subtree. -/
def toList : Tree α → List α
  | nil => []
  | node l a r => l.toList ++ a :: r.toList

/-- The nodes in the order a depth-first walk meets them: the node, then
its left subtree, then its right subtree. -/
def preorder : Tree α → List α
  | nil => []
  | node l a r => a :: (l.preorder ++ r.preorder)

def size : Tree α → Nat
  | nil => 0
  | node l _ r => l.size + r.size + 1

/-- The same tree with `f` applied to each node's data. -/
def map {β : Type} (f : α → β) : Tree α → Tree β
  | nil => nil
  | node l a r => node (l.map f) (f a) (r.map f)

@[simp] theorem toList_nil : (nil : Tree α).toList = [] := rfl
@[simp] theorem toList_node (l : Tree α) (a : α) (r : Tree α) : (node l a r).toList = l.toList ++ a :: r.toList := rfl
@[simp] theorem preorder_nil : (nil : Tree α).preorder = [] := rfl
@[simp] theorem preorder_node (l : Tree α) (a : α) (r : Tree α) :
    (node l a r).preorder = a :: (l.preorder ++ r.preorder) := rfl
@[simp] theorem size_nil : (nil : Tree α).size = 0 := rfl
@[simp] theorem size_node (l : Tree α) (a : α) (r : Tree α) : (node l a r).size = l.size + r.size + 1 := rfl

@[simp] theorem mem_toList {x : α} : ∀ {t : Tree α}, x ∈ t.toList ↔ x ∈ t
  | nil => by simp
  | node l a r => by
    rw [toList_node, List.mem_append, List.mem_cons, mem_toList, mem_toList, mem_node, or_left_comm]

@[simp] theorem mem_preorder {x : α} : ∀ {t : Tree α}, x ∈ t.preorder ↔ x ∈ t
  | nil => by simp
  | node l a r => by
    rw [preorder_node, List.mem_cons, List.mem_append, mem_preorder, mem_preorder, mem_node]

/-! ## The search order -/

/-- Every node of the left subtree is below the node, and the node below
every node of the right subtree, all the way down. -/
def Ordered (lt : α → α → Prop) : Tree α → Prop
  | nil => True
  | node l a r => Ordered lt l ∧ Ordered lt r ∧ (∀ x ∈ l, lt x a) ∧ (∀ x ∈ r, lt a x)

@[simp] theorem ordered_nil (lt : α → α → Prop) : Ordered lt (nil : Tree α) := trivial

theorem ordered_node {lt : α → α → Prop} {l : Tree α} {a : α} {r : Tree α} :
    Ordered lt (node l a r) ↔ Ordered lt l ∧ Ordered lt r ∧ (∀ x ∈ l, lt x a) ∧ (∀ x ∈ r, lt a x) := Iff.rfl

/-- A weaker order holds where a stronger one does. -/
theorem Ordered.mono {lt lt' : α → α → Prop} (h : ∀ x y, lt x y → lt' x y) : ∀ {t : Tree α}, Ordered lt t → Ordered lt' t
  | nil, _ => trivial
  | node _ _ _, ⟨hl, hr, hlt, hgt⟩ =>
    ⟨hl.mono h, hr.mono h, fun x hx => h _ _ (hlt x hx), fun x hx => h _ _ (hgt x hx)⟩

/-- In an ordered tree, a node of the left subtree is below a node of the
right subtree. -/
theorem Ordered.lt_of_mem {lt : α → α → Prop} [IsTrans α lt] {l : Tree α} {a : α} {r : Tree α}
    (h : Ordered lt (node l a r)) {x y : α} (hx : x ∈ l) (hy : y ∈ r) : lt x y :=
  IsTrans.trans _ _ _ (h.2.2.1 x hx) (h.2.2.2 y hy)

/-- In a tree in a strict order, no node is met twice. -/
theorem Ordered.nodup_preorder {lt : α → α → Prop} [Std.Irrefl lt] [IsTrans α lt] :
    ∀ {t : Tree α}, Ordered lt t → t.preorder.Nodup
  | nil, _ => List.nodup_nil
  | node l a r, h => by
    obtain ⟨hl, hr, hlt, hgt⟩ := h
    rw [preorder_node, List.nodup_cons, List.nodup_append, List.mem_append, mem_preorder, mem_preorder]
    refine ⟨?_, hl.nodup_preorder, hr.nodup_preorder, ?_⟩
    · -- the node is neither below nor above itself
      rintro (ha | ha)
      · exact irrefl a (hlt a ha)
      · exact irrefl a (hgt a ha)
    · intro x hx y hy hxy
      rw [mem_preorder] at hx hy
      subst hxy
      exact irrefl x (IsTrans.trans _ _ _ (hlt x hx) (hgt x hy))

instance decidableBallMem (p : α → Prop) [DecidablePred p] (t : Tree α) : Decidable (∀ x ∈ t, p x) :=
  decidable_of_iff (∀ x ∈ t.toList, p x) (by simp only [mem_toList])

instance decidableBexMem (p : α → Prop) [DecidablePred p] (t : Tree α) : Decidable (∃ x ∈ t, p x) :=
  decidable_of_iff (∃ x ∈ t.toList, p x) (by simp only [mem_toList])

instance decidableOrdered (lt : α → α → Prop) [DecidableRel lt] : ∀ t : Tree α, Decidable (Ordered lt t)
  | nil => isTrue trivial
  | node l a r =>
    haveI := decidableOrdered lt l
    haveI := decidableOrdered lt r
    decidable_of_iff (Ordered lt l ∧ Ordered lt r ∧ (∀ x ∈ l, lt x a) ∧ (∀ x ∈ r, lt a x)) ordered_node.symm

end Tree

/-! ## Positions -/

open BinTree.Tree

/-- One step up from a node: it hangs as the left child of `a`, whose right
subtree is `r`, or as the right child of `a`, whose left subtree is `l`. -/
inductive Frame (α : Type) where
  | left (a : α) (r : Tree α)
  | right (l : Tree α) (a : α)
  deriving DecidableEq, Repr

variable {α : Type}

/-- The whole tree around a subtree and its path to the root. -/
def plug : Tree α → List (Frame α) → Tree α
  | t, [] => t
  | t, .left a r :: up => plug (node t a r) up
  | t, .right l a :: up => plug (node l a t) up

@[simp] theorem plug_nil (t : Tree α) : plug t [] = t := rfl
@[simp] theorem plug_left (t : Tree α) (a : α) (r : Tree α) (up : List (Frame α)) :
    plug t (.left a r :: up) = plug (node t a r) up := rfl
@[simp] theorem plug_right (t : Tree α) (l : Tree α) (a : α) (up : List (Frame α)) :
    plug t (.right l a :: up) = plug (node l a t) up := rfl

/-- The nodes in order before a subtree at the end of a path. -/
def before : List (Frame α) → List α
  | [] => []
  | .left _ _ :: up => before up
  | .right l a :: up => before up ++ l.toList ++ [a]

/-- The nodes in order after a subtree at the end of a path. -/
def after : List (Frame α) → List α
  | [] => []
  | .left a r :: up => a :: r.toList ++ after up
  | .right _ _ :: up => after up

@[simp] theorem before_nil : before ([] : List (Frame α)) = [] := rfl
@[simp] theorem before_left (a : α) (r : Tree α) (up : List (Frame α)) : before (.left a r :: up) = before up := rfl
@[simp] theorem before_right (l : Tree α) (a : α) (up : List (Frame α)) :
    before (.right l a :: up) = before up ++ l.toList ++ [a] := rfl
@[simp] theorem after_nil : after ([] : List (Frame α)) = [] := rfl
@[simp] theorem after_left (a : α) (r : Tree α) (up : List (Frame α)) :
    after (.left a r :: up) = a :: r.toList ++ after up := rfl
@[simp] theorem after_right (l : Tree α) (a : α) (up : List (Frame α)) : after (.right l a :: up) = after up := rfl

theorem Ordered.of_plug {lt : α → α → Prop} : ∀ {t : Tree α} {up : List (Frame α)}, Ordered lt (plug t up) → Ordered lt t
  | _, [], h => h
  | t, .left a r :: up, h => by
    have hup : Ordered lt (plug (node t a r) up) := h
    exact (ordered_node.mp (Ordered.of_plug hup)).1
  | t, .right l a :: up, h => by
    have hup : Ordered lt (plug (node l a t) up) := h
    exact (ordered_node.mp (Ordered.of_plug hup)).2.1

/-- Every node of a subtree of an ordered tree is below everything after the
subtree. -/
theorem Ordered.lt_after {lt : α → α → Prop} [IsTrans α lt] :
    ∀ {t : Tree α} {up : List (Frame α)}, Ordered lt (plug t up) → ∀ x ∈ t, ∀ y ∈ after up, lt x y
  | _, [], _, _, _, _, hy => absurd hy List.not_mem_nil
  | t, .left a r :: up, h, x, hx, y, hy => by
    -- after a left child come its parent, the parent's right subtree, and what is after the parent
    have hup : Ordered lt (plug (node t a r) up) := h
    have hnode : Ordered lt (node t a r) := Ordered.of_plug hup
    rw [after_left, List.mem_append, List.mem_cons, mem_toList] at hy
    rcases hy with (rfl | hy) | hy
    · exact hnode.2.2.1 x hx
    · exact hnode.lt_of_mem hx hy
    · exact Ordered.lt_after hup x (Or.inr (Or.inl hx)) y hy
  | t, .right l a :: up, h, x, hx, y, hy => by
    have hup : Ordered lt (plug (node l a t) up) := h
    exact Ordered.lt_after hup x (Or.inr (Or.inr hx)) y hy

/-- A node of the tree with the path from it to the root: the C pointer to
a node, with its parent pointers. -/
structure Pos (α : Type) where
  l : Tree α
  a : α
  r : Tree α
  up : List (Frame α)
  deriving DecidableEq, Repr

/-- The subtree of a position. -/
def Pos.sub (p : Pos α) : Tree α := node p.l p.a p.r

/-- The whole tree a position is in. -/
def Pos.tree (p : Pos α) : Tree α := plug p.sub p.up

/-- The nodes still to pass above a position for a walk that goes down and
then climbs to the right: the right subtrees of the ancestors it went left
from. -/
def pending : List (Frame α) → Nat
  | [] => 0
  | .left _ r :: up => r.size + pending up
  | .right _ _ :: up => pending up

/-- A position's subtree and what is pending above it. -/
def Pos.remaining (p : Pos α) : Nat := p.sub.size + pending p.up

/-- The root of a tree as a position, or nothing for the empty tree. -/
def rootPos : Tree α → Option (Pos α)
  | nil => none
  | node l a r => some ⟨l, a, r, []⟩

/-! ## Walking backwards -/

/-- Follow right children from a subtree at the end of a path down to its
rightmost node. -/
def last : Tree α → List (Frame α) → Option (Pos α)
  | nil, _ => none
  | node l a nil, up => some ⟨l, a, nil, up⟩
  | node l a (node rl ra rr), up => last (node rl ra rr) (.right l a :: up)

/-- Climb while the node is a left child; the parent it then hangs right of,
or nothing at the root. -/
def climbLeft : Tree α → List (Frame α) → Option (Pos α)
  | _, [] => none
  | t, .left a r :: up => climbLeft (node t a r) up
  | t, .right l a :: up => some ⟨l, a, t, up⟩

/-- The in-order predecessor: the rightmost node of the left subtree, or the
first ancestor the node lies right of. -/
def prev (p : Pos α) : Option (Pos α) :=
  match p.l with
  | nil => climbLeft p.sub p.up
  | node ll la lr => last (node ll la lr) (.left p.a p.r :: p.up)

end BinTree
