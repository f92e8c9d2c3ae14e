import Mathlib
import Lustre.Wbc.Flush
import Lustre.Wbc.Reservation.Spec

/-! # What a directory flush leaves behind

`FlushInv` is what the pins and the queue of `wbc_flush_dir` are meant to
keep: every child queued has been flushed once, in order, or is still
queued, and the pins left are those of the children still queued. Every
step keeps it (`FlushInv.flushDirChildren`, `flushDirLoop_inv`), so
whenever `wbc_flush_dir` returns, every pin has been dropped and every live
child flushed (`wbc_flush_dir_released`). It returns less often than it
should: a batch that fails before its last child leaves the rest queued and
pinned, and the `LASSERT` that the queue is empty fails. The result of every
batch but the last is dropped, and derooting or decompleting the directory
does not look at the result at all.
-/

namespace Lustre.Wbc

variable (o : FlushOutcomes)

/-! ## Pins and the queue -/

/-- What a flush has done with the children it pinned: each was flushed
once, in the order queued, or is still queued, and the pins left are those
of the queued children. -/
structure FlushInv (queued : List Nat) (st : FlushState) : Prop where
  flushed_append_dirty : st.flushed ++ st.dirty = queued
  pins_perm : st.pins.Perm st.dirty

/-- Setting the context up touches neither the pins nor the queue. -/
theorem wbcfsContextPrepare_queue (st : FlushState) :
    (wbcfsContextPrepare o st).2.pins = st.pins ∧ (wbcfsContextPrepare o st).2.dirty = st.dirty ∧
      (wbcfsContextPrepare o st).2.flushed = st.flushed := by
  unfold wbcfsContextPrepare
  split <;> exact ⟨rfl, rfl, rfl⟩

theorem FlushInv.prepare {q : List Nat} {st : FlushState} (h : FlushInv q st) :
    FlushInv q (wbcfsContextPrepare o st).2 := by
  obtain ⟨hp, hd, hf⟩ := wbcfsContextPrepare_queue o st
  exact ⟨by rw [hf, hd]; exact h.flushed_append_dirty, by rw [hp, hd]; exact h.pins_perm⟩

theorem FlushInv.commit {q : List Nat} {st : FlushState} (h : FlushInv q st) :
    FlushInv q (wbcfsContextCommit o st).2 := ⟨h.flushed_append_dirty, h.pins_perm⟩

theorem FlushInv.queue {q : List Nat} {st : FlushState} (h : FlushInv q st) (c : Nat) :
    FlushInv (q ++ [c]) { st with pins := st.pins ++ [c], dirty := st.dirty ++ [c] } where
  flushed_append_dirty := by
    show st.flushed ++ (st.dirty ++ [c]) = q ++ [c]
    rw [← List.append_assoc, h.flushed_append_dirty]
  pins_perm := h.pins_perm.append_right [c]

/-- One child of the batch taken off the queue, flushed and unpinned. -/
theorem FlushInv.flushOne {q rest : List Nat} {c : Nat} {st : FlushState} (h : FlushInv q st)
    (hd : st.dirty = c :: rest) :
    FlushInv q { st with dirty := rest, flushed := st.flushed ++ [c], pins := st.pins.erase c } where
  flushed_append_dirty := by
    show st.flushed ++ [c] ++ rest = q
    rw [List.append_assoc, List.singleton_append, ← hd, h.flushed_append_dirty]
  pins_perm := by
    have := h.pins_perm.erase c
    rwa [hd, List.erase_cons_head] at this

theorem flushChildrenLoop_inv {q : List Nat} (l : List Nat) {st : FlushState} (h : FlushInv q st)
    (hd : st.dirty = l) : FlushInv q (flushChildrenLoop o l st).2 := by
  induction l generalizing st with
  | nil => exact h
  | cons c rest ih =>
    have h' := h.flushOne hd
    simp only [flushChildrenLoop]
    split
    · exact h'
    · exact ih h' rfl

theorem FlushInv.flushDirChildren {q : List Nat} {st : FlushState} (h : FlushInv q st) :
    FlushInv q (wbcFlushDirChildren o st).2 := by
  have hp := h.prepare o
  unfold wbcFlushDirChildren
  generalize wbcfsContextPrepare o st = p at hp
  obtain ⟨rc, st'⟩ := p
  have hl := flushChildrenLoop_inv o st'.dirty hp rfl
  dsimp only
  generalize flushChildrenLoop o st'.dirty st' = r at hl
  split
  · exact hp
  · split
    · exact hl
    · exact hl.commit o

/-- The children of a directory that `wbc_flush_dir` pins and queues. -/
def liveDentries (children : List WbcChild) : List Nat := (children.filter (·.live)).map (·.dentry)

theorem flushDirLoop_inv (maxQlen : UInt32) (children : List WbcChild) :
    ∀ {count : UInt32} {q : List Nat} {rc : Int} {st : FlushState} {r : Int × FlushState}, FlushInv q st →
      flushDirLoop o maxQlen children count (rc, st) = some r → FlushInv (q ++ liveDentries children) r.2 := by
  induction children with
  | nil =>
    intro count q rc st r h hr
    cases hr
    simpa [liveDentries] using h
  | cons child children ih =>
    intro count q rc st r h hr
    simp only [flushDirLoop] at hr
    by_cases hlive : child.live
    · have hq : q ++ liveDentries (child :: children) = q ++ [child.dentry] ++ liveDentries children := by
        simp [liveDentries, List.filter_cons_of_pos hlive]
      rw [hq]
      have h' := h.queue child.dentry
      rw [if_neg (by simpa using hlive)] at hr
      split_ifs at hr with hprot hunplug hdirty
      · exact ih (h'.flushDirChildren o) hr
      · exact ih h' hr
    · have hq : liveDentries (child :: children) = liveDentries children := by
        simp [liveDentries, List.filter_cons_of_neg hlive]
      rw [hq]
      rw [if_pos (by simpa using hlive)] at hr
      exact ih h hr

theorem FlushInv.init : FlushInv [] FlushState.init := ⟨rfl, List.Perm.refl []⟩

/-- Whenever `wbc_flush_dir` returns, the queue is empty, every pin it took
has been dropped, and every live child was flushed once, in order. -/
theorem wbc_flush_dir_released {maxQlen : UInt32} {k : Bool} {children : Option (List WbcChild)}
    {r : Int × FlushState} (h : wbcFlushDir o maxQlen k children = some r) :
    r.2.dirty = [] ∧ r.2.pins = [] ∧
      ∀ cs, children = some cs → o.updateRc = 0 → r.2.flushed = liveDentries cs := by
  unfold wbcFlushDir at h
  split_ifs at h with hup
  · cases h
    exact ⟨rfl, rfl, fun _ _ h0 => absurd h0 hup⟩
  · rcases children with _ | cs
    · cases h
      exact ⟨rfl, rfl, fun _ h => by cases h⟩
    · obtain ⟨⟨_, st⟩, hp, h⟩ := Option.bind_eq_some_iff.mp h
      have hinv := (flushDirLoop_inv o maxQlen cs FlushInv.init hp).flushDirChildren o
      rw [List.nil_append] at hinv
      dsimp only at h
      generalize wbcFlushDirChildren o st = b at hinv h
      obtain ⟨rc, st⟩ := b
      dsimp only at h
      -- the queue is empty after the last batch, or the LASSERT fails
      by_cases hd : st.dirty = []
      · rw [if_neg (not_not.mpr hd)] at h
        cases h
        have hf := hinv.flushed_append_dirty
        rw [hd, List.append_nil] at hf
        have hpins := hinv.pins_perm
        rw [hd] at hpins
        refine ⟨hd, hpins.eq_nil, fun cs' hcs _ => ?_⟩
        cases hcs
        exact hf
      · rw [if_pos hd] at h
        cases h

/-! ## A failure in a batch -/

/-- Every step succeeds but the flush of child `c`, which returns `-EIO`. -/
def failAt (c : Nat) : FlushOutcomes :=
  { updateRc := 0, initRc := fun _ => 0, childRc := fun d => if d = c then -5 else 0, commitRc := fun _ => 0,
    reopenRc := 0, finiRc := 0 }

/-- Live, protected children numbered `1` to `n`. -/
def liveChildren (n : Nat) : List WbcChild := (List.range n).map fun i => ⟨i + 1, true, true⟩

/-- A failure at the first of two children leaves the second queued and
pinned, and the `LASSERT` fails; with a queue of 1, the failure of the
second of three children is dropped when the last batch succeeds; and a
directory is derooted, or decompleted in lock-keep mode, though the flush of
one of its children failed. -/
theorem wbc_flush_dir_failure_lost :
    (wbcFlushDirChildren (failAt 1) { FlushState.init with pins := [1, 2], dirty := [1, 2] }).2.pins = [2] ∧
      wbcFlushDir (failAt 1) 0 false (some (liveChildren 2)) = none ∧
      (wbcFlushDir (failAt 2) 1 false (some (liveChildren 3))).map Prod.fst = some 0 ∧
      (wbcMakeInodeDerootFlush rootCached 0 (failAt 3) 0 false (some (liveChildren 3))).map
          (fun r => (r.1, (r.2.2.inode 0).map (·.flProtected))) = some (-5, some false) ∧
      (wbcMakeInodeDecompleteFlush rootCached 0 (failAt 3) 0 (some (liveChildren 3))).map
          (fun r => (r.1, (r.2.2.inode 0).map (·.flComplete))) = some (-5, some false) := by
  decide

/-- The flush of the three children with the failure dropped still releases
every pin and flushes each child once. -/
theorem wbc_flush_dir_released_three :
    ∃ r, wbcFlushDir (failAt 2) 1 false (some (liveChildren 3)) = some r ∧ r.2.dirty = [] ∧ r.2.pins = [] ∧
      ∀ cs, some (liveChildren 3) = some cs → (failAt 2).updateRc = 0 → r.2.flushed = liveDentries cs := by
  obtain ⟨r, h⟩ : ∃ r, wbcFlushDir (failAt 2) 1 false (some (liveChildren 3)) = some r := ⟨_, rfl⟩
  exact ⟨r, h, wbc_flush_dir_released (failAt 2) h⟩

end Lustre.Wbc
