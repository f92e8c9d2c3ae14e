import Mathlib
import Lustre.Lib.ConflictQueue
import Lustre.Lib.Run
import Lustre.RangeLock

/-! # What the blocking counts of a range lock tree mean

A range lock tree is a queue of conflicting requests (`ConflictQueue`): the
sequence number is the ticket and two locks conflict when their ranges
overlap. The invariant (`RangeLockInv`) is that each lock's
`rl_blocking_ranges` is the number of locks ahead of it, `blockers`: those
of the tree with a smaller sequence number whose range overlaps its own.
`range_lock` keeps it because a new lock takes the greatest sequence number
and counts every overlap already there (`RangeLockInv.enqueue`);
`range_unlock` keeps it because it takes one off exactly the later locks
that counted the one leaving (`RangeLockInv.unlock`), and never takes one off
a count of zero (`RangeLockInv.drops_pos`), so every task it wakes is set.
A task holds its lock only with a count of zero, so it has nothing ahead of
it, and no two holders overlap (`range_lock_run_blocking`).
-/

namespace Lustre.Obdclass

open ConflictQueue

/-! ## Overlapping locks -/

/-- `a` meets the range of `b`. -/
def lockOverlaps (a b : RangeLock) : Bool := rangeOverlaps a b.rlStart b.rlEnd

theorem lockOverlaps_comm (a b : RangeLock) : lockOverlaps a b = lockOverlaps b a := by
  unfold lockOverlaps rangeOverlaps
  exact Bool.and_comm _ _

/-- The locks of `root` queued before `lock` that overlap it. -/
def blockers (root : List RangeLock) (lock : RangeLock) : Nat :=
  ahead lockOverlaps RangeLock.rlSequence root lock

/-- The loop of `range_unlock` takes one off the later locks that `lock`
overlaps. -/
theorem unlockDrops_eq (lock node : RangeLock) :
    unlockDrops lock node = (lockOverlaps lock node && decide (lock.rlSequence < node.rlSequence)) := by
  unfold unlockDrops
  rw [← lockOverlaps, lockOverlaps_comm]

section Visit

variable (lock node : RangeLock)

@[simp] theorem unlockVisit_rlId : (unlockVisit lock node).rlId = node.rlId := by
  unfold unlockVisit; split <;> rfl
@[simp] theorem unlockVisit_rlStart : (unlockVisit lock node).rlStart = node.rlStart := by
  unfold unlockVisit; split <;> rfl
@[simp] theorem unlockVisit_rlEnd : (unlockVisit lock node).rlEnd = node.rlEnd := by
  unfold unlockVisit; split <;> rfl
@[simp] theorem unlockVisit_rlTask : (unlockVisit lock node).rlTask = node.rlTask := by
  unfold unlockVisit; split <;> rfl
@[simp] theorem unlockVisit_rlSequence : (unlockVisit lock node).rlSequence = node.rlSequence := by
  unfold unlockVisit; split <;> rfl

theorem unlockVisit_rlBlockingRanges :
    (unlockVisit lock node).rlBlockingRanges =
      if unlockDrops lock node then node.rlBlockingRanges - 1 else node.rlBlockingRanges := by
  unfold unlockVisit; split <;> rfl

/-- The loop of `range_unlock` changes no count of blockers. -/
theorem blockers_map_unlockVisit (root : List RangeLock) :
    blockers (root.map (unlockVisit lock)) (unlockVisit lock node) = blockers root node :=
  ahead_map (unlockVisit lock) (fun _ _ => by simp [lockOverlaps, rangeOverlaps]) (unlockVisit_rlSequence lock)

end Visit

section Enqueue

variable (tree : RangeLockTree) (current : Nat) (lock : RangeLock)

@[simp] theorem rangeLockEnqueue_rlId : (rangeLockEnqueue tree current lock).1.rlId = lock.rlId := by
  unfold rangeLockEnqueue; dsimp only; split <;> rfl
@[simp] theorem rangeLockEnqueue_rlStart : (rangeLockEnqueue tree current lock).1.rlStart = lock.rlStart := by
  unfold rangeLockEnqueue; dsimp only; split <;> rfl
@[simp] theorem rangeLockEnqueue_rlEnd : (rangeLockEnqueue tree current lock).1.rlEnd = lock.rlEnd := by
  unfold rangeLockEnqueue; dsimp only; split <;> rfl
@[simp] theorem rangeLockEnqueue_rlSequence :
    (rangeLockEnqueue tree current lock).1.rlSequence = tree.rltSequence + 1 := by
  unfold rangeLockEnqueue; dsimp only; split <;> rfl

theorem rangeLockEnqueue_rlBlockingRanges : (rangeLockEnqueue tree current lock).1.rlBlockingRanges =
    lock.rlBlockingRanges + (rangeLockIter tree.rltRoot lock.rlStart lock.rlEnd).length := by
  unfold rangeLockEnqueue; dsimp only; split <;> rfl

/-- A lock that is blocked has its task recorded. -/
theorem rangeLockEnqueue_rlTask (hpos : 0 < (rangeLockEnqueue tree current lock).1.rlBlockingRanges) :
    (rangeLockEnqueue tree current lock).1.rlTask = some current := by
  rw [rangeLockEnqueue_rlBlockingRanges] at hpos
  unfold rangeLockEnqueue
  dsimp only
  rw [if_pos hpos]

end Enqueue

/-- The insertion puts the lock somewhere among the others. -/
theorem rangeLockInsert_perm (lock : RangeLock) : ∀ root : List RangeLock,
    (rangeLockInsert lock root).Perm (lock :: root)
  | [] => List.Perm.refl _
  | node :: rest => by
    unfold rangeLockInsert
    split
    · exact List.Perm.refl _
    · exact ((rangeLockInsert_perm lock rest).cons node).trans (List.Perm.swap lock node rest)

/-! ## The invariant -/

/-- What holds of a range lock tree and its tasks between two steps. -/
structure RangeLockInv (s : RangeLockSys) : Prop where
  /-- `rl_blocking_ranges` counts the locks ahead -/
  blocking : ∀ lock ∈ s.rlsTree.rltRoot, lock.rlBlockingRanges = blockers s.rlsTree.rltRoot lock
  seqLe : ∀ lock ∈ s.rlsTree.rltRoot, lock.rlSequence ≤ s.rlsTree.rltSequence
  seqNodup : (s.rlsTree.rltRoot.map (·.rlSequence)).Nodup
  idsNodup : (s.rlsTree.rltRoot.map (·.rlId)).Nodup
  /-- a blocked lock has a task to wake -/
  task : ∀ lock ∈ s.rlsTree.rltRoot, 0 < lock.rlBlockingRanges → lock.rlTask.isSome
  /-- a task holds a lock of the tree with nothing ahead of it -/
  holding : ∀ id ∈ s.rlsHolding, ∃ lock ∈ s.rlsTree.rltRoot, lock.rlId = id ∧ lock.rlBlockingRanges = 0
  holdingNodup : s.rlsHolding.Nodup

theorem rangeLockInv_iff (s : RangeLockSys) : RangeLockInv s ↔
    (∀ lock ∈ s.rlsTree.rltRoot, lock.rlBlockingRanges = blockers s.rlsTree.rltRoot lock) ∧
    (∀ lock ∈ s.rlsTree.rltRoot, lock.rlSequence ≤ s.rlsTree.rltSequence) ∧
    (s.rlsTree.rltRoot.map (·.rlSequence)).Nodup ∧ (s.rlsTree.rltRoot.map (·.rlId)).Nodup ∧
    (∀ lock ∈ s.rlsTree.rltRoot, 0 < lock.rlBlockingRanges → lock.rlTask.isSome) ∧
    (∀ id ∈ s.rlsHolding, ∃ lock ∈ s.rlsTree.rltRoot, lock.rlId = id ∧ lock.rlBlockingRanges = 0) ∧
    s.rlsHolding.Nodup := by
  constructor
  · rintro ⟨h1, h2, h3, h4, h5, h6, h7⟩
    exact ⟨h1, h2, h3, h4, h5, h6, h7⟩
  · rintro ⟨h1, h2, h3, h4, h5, h6, h7⟩
    exact ⟨h1, h2, h3, h4, h5, h6, h7⟩

instance (s : RangeLockSys) : Decidable (RangeLockInv s) :=
  decidable_of_iff _ (rangeLockInv_iff s).symm

/-- `range_lock_tree_init`, before any task. -/
theorem RangeLockInv.init : RangeLockInv ⟨rangeLockTreeInit, []⟩ :=
  ⟨fun _ h => (by cases h), fun _ h => (by cases h), List.nodup_nil, List.nodup_nil, fun _ h => (by cases h),
    fun _ h => (by cases h), List.nodup_nil⟩

section Inv

variable {s : RangeLockSys}

/-- A lock held by a task has nothing ahead of it. -/
theorem RangeLockInv.holder_blockers (h : RangeLockInv s) {lock : RangeLock} (hl : lock ∈ s.rlsTree.rltRoot)
    (hhold : lock.rlId ∈ s.rlsHolding) : blockers s.rlsTree.rltRoot lock = 0 := by
  obtain ⟨x, hx, hxid, hx0⟩ := h.holding _ hhold
  have hxl : x = lock := List.inj_on_of_nodup_map h.idsNodup hx hl hxid
  rw [← h.blocking lock hl, ← hxl, hx0]

/-- Two locks held at once do not overlap. -/
theorem RangeLockInv.holders_apart (h : RangeLockInv s) {a b : RangeLock} (ha : a ∈ s.rlsTree.rltRoot)
    (hb : b ∈ s.rlsTree.rltRoot) (hah : a.rlId ∈ s.rlsHolding) (hbh : b.rlId ∈ s.rlsHolding)
    (hne : a.rlId ≠ b.rlId) : lockOverlaps a b = false := by
  have hseq : a.rlSequence ≠ b.rlSequence := fun hs =>
    hne (congrArg RangeLock.rlId (List.inj_on_of_nodup_map h.seqNodup ha hb hs))
  exact not_conflict_of_ahead_eq_zero lockOverlaps_comm ha hb hseq (h.holder_blockers ha hah)
    (h.holder_blockers hb hbh)

/-! ### `range_lock` -/

/-- The first block of `range_lock` on a fresh lock keeps the invariant, the
lock's task now holding it if nothing blocks it. -/
theorem RangeLockInv.enqueue (h : RangeLockInv s) {task : Nat} {l : RangeLock}
    (hid : l.rlId ∉ s.rlsTree.rltRoot.map (·.rlId)) (hl : l.rlBlockingRanges = 0) {holding : List Nat}
    (hholding : holding = s.rlsHolding ∨
      holding = l.rlId :: s.rlsHolding ∧ (rangeLockEnqueue s.rlsTree task l).1.rlBlockingRanges = 0) :
    RangeLockInv ⟨(rangeLockEnqueue s.rlsTree task l).2, holding⟩ := by
  set N := (rangeLockEnqueue s.rlsTree task l).1 with hN
  have hroot : (rangeLockEnqueue s.rlsTree task l).2.rltRoot = rangeLockInsert N s.rlsTree.rltRoot := rfl
  have hperm := rangeLockInsert_perm N s.rlsTree.rltRoot
  have hmem : ∀ x, x ∈ (rangeLockEnqueue s.rlsTree task l).2.rltRoot ↔ x = N ∨ x ∈ s.rlsTree.rltRoot :=
    fun x => by rw [hroot, hperm.mem_iff, List.mem_cons]
  -- the new lock comes after every lock of the tree
  have hseq : N.rlSequence = s.rlsTree.rltSequence + 1 := rangeLockEnqueue_rlSequence _ _ _
  have hlt : ∀ y ∈ s.rlsTree.rltRoot, y.rlSequence < N.rlSequence := fun y hy => by
    have := h.seqLe y hy
    omega
  have hNid : N.rlId ∉ s.rlsTree.rltRoot.map (·.rlId) := by rw [rangeLockEnqueue_rlId]; exact hid
  constructor
  · intro x hx
    show x.rlBlockingRanges = blockers (rangeLockEnqueue s.rlsTree task l).2.rltRoot x
    rw [hroot, blockers, ahead_perm hperm]
    rcases (hmem x).mp hx with rfl | hx
    · -- its count is the overlaps in the tree, all of them before it
      rw [ahead_cons, if_neg (by simp), ahead_of_forall_lt hlt, rangeLockEnqueue_rlBlockingRanges, hl,
        Nat.zero_add, rangeLockIter, ← List.countP_eq_length_filter, Nat.add_zero]
      simp only [lockOverlaps, hN, rangeLockEnqueue_rlStart, rangeLockEnqueue_rlEnd]
    · rw [ahead_cons_of_lt (hlt x hx)]
      exact h.blocking x hx
  · intro x hx
    show x.rlSequence ≤ s.rlsTree.rltSequence + 1
    rcases (hmem x).mp hx with rfl | hx
    · exact Nat.le_of_eq hseq
    · have := h.seqLe x hx
      omega
  · rw [hroot, (hperm.map _).nodup_iff, List.map_cons, List.nodup_cons]
    refine ⟨fun hm => ?_, h.seqNodup⟩
    obtain ⟨y, hy, hyseq⟩ := List.mem_map.mp hm
    have := hlt y hy
    omega
  · rw [hroot, (hperm.map _).nodup_iff, List.map_cons, List.nodup_cons]
    exact ⟨hNid, h.idsNodup⟩
  · intro x hx hpos
    rcases (hmem x).mp hx with rfl | hx
    · rw [rangeLockEnqueue_rlTask _ _ _ hpos]
      rfl
    · exact h.task x hx hpos
  · have hold : ∀ i ∈ s.rlsHolding, ∃ x ∈ (rangeLockEnqueue s.rlsTree task l).2.rltRoot,
        x.rlId = i ∧ x.rlBlockingRanges = 0 := fun i hi => by
      obtain ⟨x, hx, hxi, hx0⟩ := h.holding i hi
      exact ⟨x, (hmem x).mpr (.inr hx), hxi, hx0⟩
    rcases hholding with rfl | ⟨rfl, h0⟩
    · exact hold
    · intro i hi
      rcases List.mem_cons.mp hi with rfl | hi
      · exact ⟨N, (hmem N).mpr (.inl rfl), rangeLockEnqueue_rlId _ _ _, h0⟩
      · exact hold i hi
  · rcases hholding with rfl | ⟨rfl, -⟩
    · exact h.holdingNodup
    · refine List.nodup_cons.mpr ⟨fun hi => hid ?_, h.holdingNodup⟩
      obtain ⟨x, hx, hxi, -⟩ := h.holding _ hi
      exact hxi ▸ List.mem_map_of_mem hx

/-! ### `range_unlock` -/

theorem rangeLockRemove_split (hnd : (s.rlsTree.rltRoot.map (·.rlId)).Nodup) {pre post : List RangeLock}
    {x : RangeLock} (hsplit : s.rlsTree.rltRoot = pre ++ x :: post) :
    rangeLockRemove x s.rlsTree.rltRoot = pre ++ post := by
  unfold rangeLockRemove
  rw [hsplit] at hnd ⊢
  exact filter_key_ne RangeLock.rlId hnd

/-- Once `x` is out, the count of every other lock is its blockers left,
and one more if the loop of `range_unlock` takes one off it. -/
theorem RangeLockInv.blocking_remove (h : RangeLockInv s) {pre post : List RangeLock} {x : RangeLock}
    (hsplit : s.rlsTree.rltRoot = pre ++ x :: post) :
    ∀ y ∈ pre ++ post, y.rlBlockingRanges = blockers (pre ++ post) y + if unlockDrops x y then 1 else 0 := by
  intro y hy
  have hy' : y ∈ s.rlsTree.rltRoot := by
    rw [hsplit]
    rcases List.mem_append.mp hy with hy | hy
    · exact List.mem_append_left _ hy
    · exact List.mem_append_right _ (List.mem_cons_of_mem x hy)
  rw [h.blocking y hy', hsplit]
  unfold blockers
  rw [← ahead_remove pre post x y, unlockDrops_eq]

/-- `range_unlock` never takes one off a count of zero. -/
theorem RangeLockInv.drops_pos (h : RangeLockInv s) {x : RangeLock} (hx : x ∈ s.rlsTree.rltRoot) :
    ∀ y ∈ rangeLockRemove x s.rlsTree.rltRoot, unlockDrops x y = true → 0 < y.rlBlockingRanges := by
  obtain ⟨pre, post, hsplit⟩ := List.append_of_mem hx
  intro y hy hd
  rw [rangeLockRemove_split h.idsNodup hsplit] at hy
  rw [h.blocking_remove hsplit y hy, if_pos hd]
  omega

/-- Every task `range_unlock` wakes is set. -/
theorem RangeLockInv.woken_isSome (h : RangeLockInv s) {x : RangeLock} (hx : x ∈ s.rlsTree.rltRoot) :
    ∀ t ∈ (rangeUnlock s.rlsTree x).1, t.isSome := by
  intro t ht
  obtain ⟨y, hy, rfl⟩ := List.mem_map.mp ht
  rw [List.mem_filter, Bool.and_eq_true] at hy
  have hpos := h.drops_pos hx y hy.1 hy.2.1
  exact h.task y (List.mem_of_mem_filter hy.1) hpos

/-- `range_unlock` of a lock of the tree keeps the invariant, for tasks that
hold other locks. -/
theorem RangeLockInv.unlock (h : RangeLockInv s) {x : RangeLock} (hx : x ∈ s.rlsTree.rltRoot)
    {holding : List Nat} (hsub : ∀ i ∈ holding, i ∈ s.rlsHolding ∧ i ≠ x.rlId) (hnd : holding.Nodup) :
    RangeLockInv ⟨(rangeUnlock s.rlsTree x).2, holding⟩ := by
  obtain ⟨pre, post, hsplit⟩ := List.append_of_mem hx
  have hroot1 := rangeLockRemove_split h.idsNodup hsplit
  have hroot : (rangeUnlock s.rlsTree x).2.rltRoot = (pre ++ post).map (unlockVisit x) := by
    rw [← hroot1]
    rfl
  have hsub1 : (pre ++ post).Sublist s.rlsTree.rltRoot := hroot1 ▸ List.filter_sublist
  have hcount := h.blocking_remove hsplit
  constructor
  · intro z hz
    show z.rlBlockingRanges = blockers (rangeUnlock s.rlsTree x).2.rltRoot z
    rw [hroot] at hz ⊢
    obtain ⟨y, hy, rfl⟩ := List.mem_map.mp hz
    rw [blockers_map_unlockVisit, unlockVisit_rlBlockingRanges, hcount y hy]
    split <;> simp
  · intro z hz
    rw [hroot] at hz
    obtain ⟨y, hy, rfl⟩ := List.mem_map.mp hz
    rw [unlockVisit_rlSequence]
    exact h.seqLe y (hsub1.subset hy)
  · rw [hroot, List.map_map]
    have hseq : (pre ++ post).map (RangeLock.rlSequence ∘ unlockVisit x) = (pre ++ post).map (·.rlSequence) :=
      List.map_congr_left fun y _ => unlockVisit_rlSequence x y
    rw [hseq]
    exact h.seqNodup.sublist (hsub1.map _)
  · rw [hroot, List.map_map]
    have hid : (pre ++ post).map (RangeLock.rlId ∘ unlockVisit x) = (pre ++ post).map (·.rlId) :=
      List.map_congr_left fun y _ => unlockVisit_rlId x y
    rw [hid]
    exact h.idsNodup.sublist (hsub1.map _)
  · intro z hz hpos
    rw [hroot] at hz
    obtain ⟨y, hy, rfl⟩ := List.mem_map.mp hz
    rw [unlockVisit_rlTask]
    refine h.task y (hsub1.subset hy) ?_
    rw [unlockVisit_rlBlockingRanges] at hpos
    split at hpos <;> omega
  · intro i hi
    obtain ⟨hi1, hne⟩ := hsub i hi
    obtain ⟨y, hy, hyi, hy0⟩ := h.holding i hi1
    -- a holder is not `x`, and nothing was ahead of it to leave
    have hy' : y ∈ pre ++ post := by
      rw [hsplit] at hy
      rcases List.mem_append.mp hy with hy | hy
      · exact List.mem_append_left _ hy
      · rcases List.mem_cons.mp hy with rfl | hy
        · exact absurd hyi.symm hne
        · exact List.mem_append_right _ hy
    have hnd : unlockDrops x y = false := by
      rw [Bool.eq_false_iff]
      intro hd
      have := hcount y hy'
      rw [if_pos hd] at this
      omega
    refine ⟨unlockVisit x y, by rw [hroot]; exact List.mem_map_of_mem hy', by rw [unlockVisit_rlId, hyi], ?_⟩
    rw [unlockVisit_rlBlockingRanges, hnd]
    exact hy0
  · exact hnd

end Inv

/-! ## Steps -/

/-- What the caller of each step ensures: a lock is queued once at a time,
a task back from `schedule()` waits for a lock of the tree, and only a task
that holds a lock unlocks it. -/
def RangeLockAllowed (s : RangeLockSys) : RangeLockOp → Prop
  | .lock _ id _ _ => id ∉ s.rlsTree.rltRoot.map (·.rlId)
  | .wake id _ => id ∈ s.rlsTree.rltRoot.map (·.rlId) ∧ id ∉ s.rlsHolding
  | .unlock id => id ∈ s.rlsHolding

instance (s : RangeLockSys) (op : RangeLockOp) : Decidable (RangeLockAllowed s op) := by
  cases op <;> unfold RangeLockAllowed <;> infer_instance

/-- The tasks a step wakes. -/
def RangeLockRet.woken : RangeLockRet → List (Option Nat)
  | .returned _ woken => woken
  | .sleeping => []
  | .unlocked woken => woken

section Steps

variable {s : RangeLockSys}

theorem lookupLock_of_mem (hnd : (s.rlsTree.rltRoot.map (·.rlId)).Nodup) {lock : RangeLock}
    (hl : lock ∈ s.rlsTree.rltRoot) : lookupLock s lock.rlId = some lock := by
  obtain ⟨pre, post, hsplit⟩ := List.append_of_mem hl
  unfold lookupLock
  rw [hsplit] at hnd ⊢
  exact find?_key RangeLock.rlId hnd

theorem lookupLock_eq_none {id : Nat} (h : id ∉ s.rlsTree.rltRoot.map (·.rlId)) : lookupLock s id = none := by
  unfold lookupLock
  rw [List.find?_eq_none]
  intro x hx hxid
  exact h (List.mem_map.mpr ⟨x, hx, by simpa using hxid⟩)

theorem rangeLockStep_lock (task id start last : Nat) :
    rangeLockStep s (.lock task id start last) =
      if (lookupLock s id).isSome then none
      else if (rangeLockEnqueue s.rlsTree task (rangeLockInit id start last)).1.rlBlockingRanges > 0 then
        some (.sleeping, { s with rlsTree := (rangeLockEnqueue s.rlsTree task (rangeLockInit id start last)).2 })
      else some (.returned 0 [], ⟨(rangeLockEnqueue s.rlsTree task (rangeLockInit id start last)).2, id :: s.rlsHolding⟩) :=
  rfl

theorem rangeLockStep_wake {id : Nat} {lock : RangeLock} (hl : lookupLock s id = some lock) (signal : Bool) :
    rangeLockStep s (.wake id signal) =
      if signal then some (.returned (-erestartsys) (rangeUnlock s.rlsTree lock).1, { s with rlsTree := (rangeUnlock s.rlsTree lock).2 })
      else if lock.rlBlockingRanges > 0 then some (.sleeping, s)
      else some (.returned 0 [], { s with rlsHolding := id :: s.rlsHolding }) := by
  rw [rangeLockStep, hl]

theorem rangeLockStep_unlock {id : Nat} {lock : RangeLock} (hl : lookupLock s id = some lock) :
    rangeLockStep s (.unlock id) =
      some (.unlocked (rangeUnlock s.rlsTree lock).1, ⟨(rangeUnlock s.rlsTree lock).2, s.rlsHolding.erase id⟩) := by
  rw [rangeLockStep, hl]

/-- Every step a caller may take returns, wakes only set tasks, and keeps the
invariant. -/
theorem rangeLockStep_spec (h : RangeLockInv s) {op : RangeLockOp} (hop : RangeLockAllowed s op) :
    ∃ r s', rangeLockStep s op = some (r, s') ∧ (∀ t ∈ r.woken, t.isSome) ∧ RangeLockInv s' := by
  cases op with
  | lock task id start last =>
    have hnone : (lookupLock s id).isSome = false := by rw [lookupLock_eq_none hop]; rfl
    have hinit : (rangeLockInit id start last).rlBlockingRanges = 0 := rfl
    rw [rangeLockStep_lock, hnone, if_neg Bool.false_ne_true]
    by_cases hpos : (rangeLockEnqueue s.rlsTree task (rangeLockInit id start last)).1.rlBlockingRanges > 0
    · -- blocked: the task goes to sleep
      rw [if_pos hpos]
      exact ⟨_, _, rfl, fun _ ht => (by cases ht), h.enqueue (l := rangeLockInit id start last) hop hinit (.inl rfl)⟩
    · rw [if_neg hpos]
      exact ⟨_, _, rfl, fun _ ht => (by cases ht), h.enqueue (l := rangeLockInit id start last) hop hinit (.inr ⟨rfl, by omega⟩)⟩
  | wake id signal =>
    obtain ⟨hmem, hnh⟩ := hop
    obtain ⟨x, hx, hxid⟩ := List.mem_map.mp hmem
    have hl : lookupLock s id = some x := hxid ▸ lookupLock_of_mem h.idsNodup hx
    rw [rangeLockStep_wake hl]
    cases signal with
    | true =>
      -- interrupted: the lock leaves the tree
      refine ⟨_, _, rfl, h.woken_isSome hx, h.unlock hx (fun i hi => ⟨hi, ?_⟩) h.holdingNodup⟩
      rintro rfl
      exact hnh (hxid ▸ hi)
    | false =>
      by_cases hpos : x.rlBlockingRanges > 0
      · rw [if_neg Bool.false_ne_true, if_pos hpos]
        exact ⟨_, _, rfl, fun _ ht => (by cases ht), h⟩
      · -- nothing blocks it any more: `range_lock` returns 0
        rw [if_neg Bool.false_ne_true, if_neg hpos]
        refine ⟨_, _, rfl, fun _ ht => (by cases ht), ⟨h.blocking, h.seqLe, h.seqNodup, h.idsNodup, h.task, ?_, ?_⟩⟩
        · intro i hi
          rcases List.mem_cons.mp hi with rfl | hi
          · exact ⟨x, hx, hxid, by omega⟩
          · exact h.holding i hi
        · exact List.nodup_cons.mpr ⟨hnh, h.holdingNodup⟩
  | unlock id =>
    obtain ⟨x, hx, hxid, -⟩ := h.holding id hop
    have hl : lookupLock s id = some x := hxid ▸ lookupLock_of_mem h.idsNodup hx
    rw [rangeLockStep_unlock hl]
    refine ⟨_, _, rfl, h.woken_isSome hx, h.unlock hx (fun i hi => ?_) (h.holdingNodup.sublist (List.erase_sublist))⟩
    -- the holders left are the others
    have hne : i ≠ id := fun hi' => (List.Nodup.not_mem_erase h.holdingNodup) (hi' ▸ hi)
    exact ⟨List.mem_of_mem_erase hi, hxid ▸ hne⟩

end Steps

/-! ## Runs -/

/-- Along every interleaving of the tasks' steps that their callers allow,
from a tree in shape (as `range_lock_tree_init` leaves it), every step
returns; each lock's `rl_blocking_ranges` is the number of locks of the tree
with a smaller sequence number that overlap it; a lock held, whose
`range_lock` returned 0, has no earlier overlapping lock left in the tree,
so overlapping locks are held in the order of their sequence numbers; no two
held locks overlap; and no woken task is `NULL`. -/
theorem range_lock_run_blocking {s : RangeLockSys} (h : RangeLockInv s) {ops : List RangeLockOp}
    (hrun : StepRun.AllowedRun rangeLockStep RangeLockAllowed s ops) :
    ∃ rs s', StepRun.run rangeLockStep s ops = some (rs, s') ∧
      (∀ lock ∈ s'.rlsTree.rltRoot, lock.rlBlockingRanges = s'.rlsTree.rltRoot.countP fun node =>
        rangeOverlaps node lock.rlStart lock.rlEnd && decide (node.rlSequence < lock.rlSequence)) ∧
      (∀ lock ∈ s'.rlsTree.rltRoot, lock.rlId ∈ s'.rlsHolding → ∀ node ∈ s'.rlsTree.rltRoot,
        rangeOverlaps node lock.rlStart lock.rlEnd = true → lock.rlSequence ≤ node.rlSequence) ∧
      (∀ a ∈ s'.rlsTree.rltRoot, ∀ b ∈ s'.rlsTree.rltRoot, a.rlId ∈ s'.rlsHolding → b.rlId ∈ s'.rlsHolding →
        a.rlId ≠ b.rlId → rangeOverlaps a b.rlStart b.rlEnd = false) ∧
      ∀ r ∈ rs, ∀ t ∈ r.woken, t.isSome := by
  obtain ⟨rs, s', hr, hwoken, hinv⟩ := StepRun.run_total rangeLockStep RangeLockAllowed RangeLockInv
    (fun r => ∀ t ∈ r.woken, t.isSome) (fun s op hop hs => by
      obtain ⟨r, s', heq, hw, hinv⟩ := rangeLockStep_spec hs hop
      exact ⟨r, s', heq, hw, hinv⟩) ops s hrun h
  refine ⟨rs, s', hr, hinv.blocking, ?_, fun a ha b hb hah hbh hne => hinv.holders_apart ha hb hah hbh hne, hwoken⟩
  intro lock hl hhold node hnode hov
  exact ahead_eq_zero_iff.mp (hinv.holder_blockers hl hhold) node hnode hov

/-- Two writers of overlapping ranges: the second sleeps behind the first,
the first's unlock wakes it, and it then holds its range. -/
theorem range_lock_run_two_writers :
    ∃ rs s', StepRun.run rangeLockStep ⟨rangeLockTreeInit, []⟩
        [.lock 1 10 0 8191, .lock 2 20 4096 12287, .unlock 10, .wake 20 false] = some (rs, s') ∧
      ∀ r ∈ rs, ∀ t ∈ r.woken, t.isSome := by
  have hrun : StepRun.AllowedRun rangeLockStep RangeLockAllowed ⟨rangeLockTreeInit, []⟩
      [.lock 1 10 0 8191, .lock 2 20 4096 12287, .unlock 10, .wake 20 false] :=
    StepRun.allowedRun_cons_of_step rangeLockStep RangeLockAllowed (by decide) rfl <|
      StepRun.allowedRun_cons_of_step rangeLockStep RangeLockAllowed (by decide) rfl <|
      StepRun.allowedRun_cons_of_step rangeLockStep RangeLockAllowed (by decide) rfl <|
      StepRun.allowedRun_cons_of_step rangeLockStep RangeLockAllowed (by decide) rfl trivial
  obtain ⟨rs, s', hr, -, -, -, hwoken⟩ := range_lock_run_blocking RangeLockInv.init hrun
  exact ⟨rs, s', hr, hwoken⟩

end Lustre.Obdclass
