import Mathlib
import Lustre.Wbc.Sync

/-! # Parents reach the MDT first

An inode may be written out to the MDT once its parent is there. A write
is in order (`WbcWrite.InOrder`) when the inode was written out already or
its parent was. `WritesInOrder s s'` says that every write from `s` to `s'`
is in order.

* `wbcMakeInodeSync_in_order`: every write of `wbc_make_inode_sync` is in
  order, whatever the other threads and the MDT do. The walk builds a list
  each of whose inodes is the parent of the next one (`wbcMakeSyncLoop_chain`),
  and `wbc_flush_ancestors_topdown` writes a prefix of it: up to and
  including the first failure (`wbcFlushAncestorsTopdown_written`). Every
  inode of the list ends with `WRITEBACK` cleared.
* `wbcWritebackSbInodes_in_order`: the background flusher writes in order
  when the uninitialised `result` of `wbc_inode_check_parent` happens to be
  false, and `wbcInodeCheckParent_eq` says what the check returns in
  general. With `result` true, a child is written before its parent.

`wbc_writes_parents_first` puts the two in order results together.
-/

namespace Lustre.Wbc

open SyncState

/-! ## Writes in order -/

/-- A write respects the tree: the inode or its parent is on the MDT. -/
def WbcWrite.InOrder (w : WbcWrite) : Prop :=
  wbcInodeWrittenOut w.flags = true ∨ wbcInodeWrittenOut w.parentFlags = true

instance (w : WbcWrite) : Decidable w.InOrder :=
  inferInstanceAs (Decidable (wbcInodeWrittenOut w.flags = true ∨ wbcInodeWrittenOut w.parentFlags = true))

/-- Every write from `s` to `s'` is in order. -/
def WritesInOrder (s s' : SyncState) : Prop :=
  ∃ new, s'.writes = s.writes ++ new ∧ ∀ w ∈ new, w.InOrder

theorem WritesInOrder.of_writes_eq {s s' : SyncState} (h : s'.writes = s.writes) : WritesInOrder s s' :=
  ⟨[], by simp [h], fun _ hw => absurd hw List.not_mem_nil⟩

theorem WritesInOrder.trans {s1 s2 s3 : SyncState} (h12 : WritesInOrder s1 s2) (h23 : WritesInOrder s2 s3) :
    WritesInOrder s1 s3 := by
  obtain ⟨n1, hw1, ho1⟩ := h12
  obtain ⟨n2, hw2, ho2⟩ := h23
  refine ⟨n1 ++ n2, by rw [hw2, hw1, List.append_assoc], fun w hw => ?_⟩
  rcases List.mem_append.mp hw with h | h
  · exact ho1 w h
  · exact ho2 w h

/-! ## Writing one inode -/

section Write

variable (rc : Nat → Int) (s : SyncState) (ino : Nat)

theorem writeInode_writes :
    (writeInode rc s ino).2.writes = s.writes ++ [⟨ino, (s.inode ino).wbciFlags, s.parentFlags ino⟩] := by
  unfold writeInode
  split <;> rfl

@[simp] theorem writeInode_dParent (j : Nat) : ((writeInode rc s ino).2.inode j).dParent = (s.inode j).dParent := by
  unfold writeInode
  split
  · exact setFlags_dParent _ _ _ j
  · rfl

/-- A write the MDT accepts leaves the inode written out. -/
theorem writeInode_sync (h : (writeInode rc s ino).1 = 0) :
    ((writeInode rc s ino).2.inode ino).wbciFlags.flSync = true := by
  unfold writeInode at h ⊢
  split
  · simp
  · rename_i hrc
    simp only [if_neg hrc] at h
    exact absurd h hrc

theorem writeInode_inode_ne {j : Nat} (h : j ≠ ino) : (writeInode rc s ino).2.inode j = s.inode j := by
  unfold writeInode
  split
  · exact setFlags_inode_ne _ _ _ h
  · rfl

theorem writeInode_fst : (writeInode rc s ino).1 = rc ino := by
  unfold writeInode
  split
  · rename_i h
    exact h.symm
  · rfl

/-- A write is in order when the inode or its parent is written out. -/
theorem writeInode_in_order
    (h : wbcInodeWrittenOut (s.inode ino).wbciFlags = true ∨ wbcInodeWrittenOut (s.parentFlags ino) = true) :
    WritesInOrder s (writeInode rc s ino).2 := by
  refine ⟨_, writeInode_writes rc s ino, fun w hw => ?_⟩
  rw [List.mem_singleton] at hw
  subst hw
  exact h

end Write

/-! ## The walk up -/

/-- Each inode of the list has the one before it as parent; the first has
`a`. -/
def Linked (s : SyncState) : Nat → List Nat → Prop
  | _, [] => True
  | a, b :: rest => (s.inode b).dParent = a ∧ Linked s b rest

/-- The list `wbc_flush_ancestors_topdown` can be given: linked, and its
first inode written out or with its parent written out. -/
def FlushChain (s : SyncState) : List Nat → Prop
  | [] => True
  | a :: rest => (wbcInodeWrittenOut (s.inode a).wbciFlags = true ∨ wbcInodeWrittenOut (s.parentFlags a) = true) ∧
      Linked s a rest

/-- Only the parents matter to `Linked`. -/
theorem Linked.congr {s s' : SyncState} (hpar : ∀ j, (s'.inode j).dParent = (s.inode j).dParent) :
    ∀ {a : Nat} {l : List Nat}, Linked s a l → Linked s' a l
  | _, [], _ => trivial
  | _, _ :: _, ⟨hb, hl⟩ => ⟨(hpar _).trans hb, Linked.congr hpar hl⟩

/-- A written-out inode's children may follow it. -/
theorem flushChain_of_parent {s : SyncState} {d : Nat} {l : List Nat}
    (hw : wbcInodeWrittenOut (s.inode d).wbciFlags = true) (hl : Linked s d l) : FlushChain s l := by
  cases l with
  | nil => trivial
  | cons b rest =>
    obtain ⟨hb, hrest⟩ := hl
    refine ⟨.inr ?_, hrest⟩
    rw [parentFlags, hb]
    exact hw

/-- A root has a flag set, so it is written out only when `SYNC`. -/
theorem flSync_of_root {f : WbcFlags} (hw : wbcInodeWrittenOut f = true) (hr : f.flRoot = true) :
    f.flSync = true := by
  unfold wbcInodeWrittenOut at hw
  cases hs : f.flSync
  · rw [hs, Bool.false_or, beq_iff_eq] at hw
    rw [hw] at hr
    exact absurd hr (by decide)
  · rfl

/-- Where the walk stops: the inode is written out, and a lock-drop root goes
first on the list. -/
theorem wbcSyncAddrootLockdrop_chain {s s' : SyncState} {d : Nat} {fsync L : List Nat}
    (hw : wbcInodeWrittenOut (s.inode d).wbciFlags = true) (hl : Linked s d fsync)
    (h : wbcSyncAddrootLockdrop s d fsync = .ok (s', L)) : FlushChain s' L ∧ s'.writes = s.writes := by
  unfold wbcSyncAddrootLockdrop at h
  dsimp only at h
  split at h
  · rename_i hroot
    split at h
    · cases h
    · cases h
      -- a root with `WRITEBACK` added is still `SYNC`
      have hsync := flSync_of_root hw hroot.2
      refine ⟨⟨.inl ?_, Linked.congr (setFlags_dParent s d _) hl⟩, rfl⟩
      simp [wbcInodeWrittenOut, hsync]
  · cases h
    exact ⟨flushChain_of_parent hw hl, rfl⟩

/-- `s1` differs from `s` at most in the flags and `i_state` of `d`. -/
def SyncState.OnlyAt (s s1 : SyncState) (d : Nat) : Prop :=
  (∀ j, j ≠ d → s1.inode j = s.inode j) ∧ (∀ j, (s1.inode j).dParent = (s.inode j).dParent) ∧
    s1.writes = s.writes

theorem SyncState.OnlyAt.refl (s : SyncState) (d : Nat) : s.OnlyAt s d :=
  ⟨fun _ _ => rfl, fun _ => rfl, rfl⟩

theorem SyncState.OnlyAt.trans {s1 s2 s3 : SyncState} {d : Nat} (h12 : s1.OnlyAt s2 d) (h23 : s2.OnlyAt s3 d) :
    s1.OnlyAt s3 d :=
  ⟨fun j hj => (h23.1 j hj).trans (h12.1 j hj), fun j => (h23.2.1 j).trans (h12.2.1 j), h23.2.2.trans h12.2.2⟩

theorem onlyAt_setFlags (s : SyncState) (d : Nat) (f : WbcFlags) : s.OnlyAt (s.setFlags d f) d :=
  ⟨fun _ hj => setFlags_inode_ne s d f hj, setFlags_dParent s d f, rfl⟩

theorem onlyAt_setState (s : SyncState) (d : Nat) (a b : Bool) : s.OnlyAt (s.setState d a b) d :=
  ⟨fun _ hj => by simp [setState, Function.update_of_ne hj], setState_dParent s d a b, rfl⟩

/-- One pass of the loop of `wbc_make_inode_sync` at `d`: after the waits,
which change only `d`, it stops at `d` written out, trips an assertion, or
marks `d` and goes on at its parent. -/
theorem wbcMakeSyncLoop_succ (env : SyncEnv) (fuel : Nat) (s : SyncState) (d : Nat) (fsync : List Nat) :
    (∃ s1, s.OnlyAt s1 d ∧ wbcInodeWrittenOut (s1.inode d).wbciFlags = true ∧
        wbcMakeSyncLoop env (fuel + 1) s d fsync = wbcSyncAddrootLockdrop s1 d fsync) ∨
      wbcMakeSyncLoop env (fuel + 1) s d fsync = .error .lbug ∨
      (∃ s1, s.OnlyAt s1 d ∧ wbcInodeWrittenOut (s.inode d).wbciFlags = false ∧
        wbcMakeSyncLoop env (fuel + 1) s d fsync = wbcMakeSyncLoop env fuel s1 (s.inode d).dParent (d :: fsync)) := by
  rw [wbcMakeSyncLoop.eq_2]
  by_cases hw : wbcInodeWrittenOut (s.inode d).wbciFlags = true
  · exact .inl ⟨s, OnlyAt.refl s d, hw, if_pos hw⟩
  rw [if_neg hw]
  dsimp only
  -- the wait for another flusher
  generalize hs1 : (if (s.inode d).wbciFlags.flWriteback = true then s.setFlags d (env.afterFlush d) else s) = s1
  have ho1 : s.OnlyAt s1 d := by
    rw [← hs1]
    split
    · exact onlyAt_setFlags s d _
    · exact OnlyAt.refl s d
  split
  · exact .inr (.inl rfl)
  split
  · exact .inl ⟨s1, ho1, ‹_›, rfl⟩
  -- the wait for the writeback thread
  generalize hs2 : (if (s1.inode d).iSync = true then
    (s1.setFlags d (env.afterISync d)).setState d false (s1.inode d).iDirty else s1) = s2
  have ho2 : s.OnlyAt s2 d := by
    rw [← hs2]
    split
    · exact (ho1.trans (onlyAt_setFlags s1 d _)).trans (onlyAt_setState _ d _ _)
    · exact ho1
  split
  · exact .inl ⟨s2, ho2, ‹_›, rfl⟩
  refine .inr (.inr ⟨s2.setFlags d { (s2.inode d).wbciFlags with flWriteback := true },
    ho2.trans (onlyAt_setFlags s2 d _), Bool.eq_false_iff.mpr hw, ?_⟩)
  rw [ho2.2.1 d]

/-- The walk up writes nothing, and the list it builds can be flushed in
order. -/
theorem wbcMakeSyncLoop_chain (env : SyncEnv) (fuel : Nat) :
    ∀ {s s' : SyncState} {d : Nat} {fsync L : List Nat}, Linked s d fsync →
      wbcMakeSyncLoop env fuel s d fsync = .ok (s', L) → FlushChain s' L ∧ s'.writes = s.writes := by
  induction fuel with
  | zero =>
    intro s s' d fsync L _ h
    cases h
  | succ fuel ih =>
    intro s s' d fsync L hl h
    rcases wbcMakeSyncLoop_succ env fuel s d fsync with ⟨s1, ho, hw, heq⟩ | heq | ⟨s1, ho, -, heq⟩
    · rw [heq] at h
      exact (wbcSyncAddrootLockdrop_chain hw (Linked.congr ho.2.1 hl) h).imp_right (·.trans ho.2.2)
    · rw [heq] at h
      cases h
    · -- `d` goes on the head of the list, and the walk goes on at its parent
      rw [heq] at h
      have hnext : Linked s1 (s.inode d).dParent (d :: fsync) := ⟨ho.2.1 d, Linked.congr ho.2.1 hl⟩
      exact (ih hnext h).imp_right (·.trans ho.2.2)

/-! ## Flushing the list -/

/-- The inodes a list of syncs reaches: up to and including the first that
fails. -/
def takeUntilFail (rc : Nat → Int) : List Nat → List Nat
  | [] => []
  | a :: l => a :: (if rc a = 0 then takeUntilFail rc l else [])

section Flush

variable (env : SyncEnv)

/-- After a failure nothing more is written, and the failure is returned. -/
theorem wbcFlushAncestorsTopdown_failed : ∀ (L : List Nat) (s : SyncState) {rc : Int}, rc ≠ 0 →
    (wbcFlushAncestorsTopdown env s L rc).1.writes = s.writes ∧ (wbcFlushAncestorsTopdown env s L rc).2 = rc
  | [], _, _, _ => ⟨rfl, rfl⟩
  | a :: L, s, rc, hrc => by
    simp only [wbcFlushAncestorsTopdown, if_neg hrc]
    exact wbcFlushAncestorsTopdown_failed L _ hrc

/-- `wbc_flush_ancestors_topdown` writes the list in order, from its head,
up to and including the first failure. -/
theorem wbcFlushAncestorsTopdown_written : ∀ (L : List Nat) (s : SyncState),
    (wbcFlushAncestorsTopdown env s L 0).1.writes.map (·.ino) = s.writes.map (·.ino) ++ takeUntilFail env.rc L
  | [], s => by simp [wbcFlushAncestorsTopdown, takeUntilFail]
  | a :: L, s => by
    simp only [wbcFlushAncestorsTopdown, ↓reduceIte, takeUntilFail]
    have hw := writeInode_writes env.rc s a
    by_cases hrc : env.rc a = 0
    · rw [writeInode_fst, if_pos hrc, hrc, wbcFlushAncestorsTopdown_written L, setFlags_writes, hw]
      simp
    · rw [writeInode_fst, if_neg hrc, (wbcFlushAncestorsTopdown_failed env L _ hrc).1, setFlags_writes, hw]
      simp

/-- A list fit to flush is written in order. Its head is written out or has
its parent written out; each later inode's parent is the one just written,
which a success leaves `SYNC`, and after a failure nothing is written. -/
theorem wbcFlushAncestorsTopdown_in_order : ∀ (L : List Nat) (s : SyncState), FlushChain s L →
    WritesInOrder s (wbcFlushAncestorsTopdown env s L 0).1
  | [], _, _ => WritesInOrder.of_writes_eq rfl
  | a :: L, s, ⟨ha, hl⟩ => by
    simp only [wbcFlushAncestorsTopdown, ↓reduceIte]
    -- the head is written, then its `WRITEBACK` cleared, which writes nothing
    have h2 : WritesInOrder s ((writeInode env.rc s a).2.setFlags a
        { ((writeInode env.rc s a).2.inode a).wbciFlags with flWriteback := false }) :=
      (writeInode_in_order env.rc s a ha).trans (WritesInOrder.of_writes_eq rfl)
    by_cases hrc : env.rc a = 0
    · rw [writeInode_fst, hrc]
      -- the head is `SYNC` now, so its child may follow
      have hsync := writeInode_sync env.rc s a (by rw [writeInode_fst, hrc])
      refine h2.trans (wbcFlushAncestorsTopdown_in_order L _ (flushChain_of_parent (d := a) ?_ ?_))
      · simp [wbcInodeWrittenOut, hsync]
      · exact Linked.congr (fun j => by simp) hl
    · rw [writeInode_fst]
      exact h2.trans (WritesInOrder.of_writes_eq (wbcFlushAncestorsTopdown_failed env L _ hrc).1)

/-- Flushing an inode of the list never sets `WRITEBACK` on another, nor on
itself. -/
theorem wbcFlushAncestorsTopdown_keeps_clear {a : Nat} : ∀ (L : List Nat) (s : SyncState) (rc : Int),
    (s.inode a).wbciFlags.flWriteback = false →
      ((wbcFlushAncestorsTopdown env s L rc).1.inode a).wbciFlags.flWriteback = false
  | [], _, _, h => h
  | b :: L, s, rc, h => by
    simp only [wbcFlushAncestorsTopdown]
    apply wbcFlushAncestorsTopdown_keeps_clear L
    generalize hw : (if rc = 0 then writeInode env.rc s b else (rc, s)) = w
    -- `write_inode` of `b` only adds `SYNC`
    have hw2 : (w.2.inode a).wbciFlags.flWriteback = false := by
      rw [← hw]
      split
      · by_cases hab : a = b
        · subst hab
          unfold writeInode
          split <;> simpa using h
        · rw [writeInode_inode_ne env.rc s b hab]
          exact h
      · exact h
    by_cases hab : a = b
    · subst hab
      simp
    · rw [setFlags_inode_ne _ _ _ hab]
      exact hw2

/-- Every inode of the list ends with `WRITEBACK` cleared, written or not. -/
theorem wbcFlushAncestorsTopdown_clears : ∀ (L : List Nat) (s : SyncState) (rc : Int) {a : Nat}, a ∈ L →
    ((wbcFlushAncestorsTopdown env s L rc).1.inode a).wbciFlags.flWriteback = false
  | b :: L, s, rc, a, ha => by
    simp only [wbcFlushAncestorsTopdown]
    rcases List.mem_cons.mp ha with rfl | ha
    · exact wbcFlushAncestorsTopdown_keeps_clear env L _ _ (by simp)
    · exact wbcFlushAncestorsTopdown_clears L _ _ ha

end Flush

/-! ## `wbc_make_inode_sync` -/

/-- What `wbc_make_inode_sync` does when it returns: it has built a list
whose head is written out or has its parent written out and each of whose
inodes is the parent of the next; it has written the list from its head up
to and including the first failure; every write was in order; and every
inode of the list is left without `WRITEBACK`. -/
theorem wbcMakeInodeSync_in_order (env : SyncEnv) {fuel : Nat} {s s' : SyncState} {d : Nat} {rc : Int}
    (h : wbcMakeInodeSync env fuel s d = .ok (s', rc)) :
    ∃ s1 L, FlushChain s1 L ∧
      s'.writes.map (·.ino) = s.writes.map (·.ino) ++ takeUntilFail env.rc L ∧
      WritesInOrder s s' ∧ ∀ a ∈ L, (s'.inode a).wbciFlags.flWriteback = false := by
  unfold wbcMakeInodeSync at h
  rcases hl : wbcMakeSyncLoop env fuel s d [] with e | ⟨s1, L⟩
  · rw [hl] at h
    cases h
  · rw [hl] at h
    have hflush : wbcFlushAncestorsTopdown env s1 L 0 = (s', rc) := by
      simpa [bind, Except.bind, pure, Except.pure] using h
    have h0 : Linked s d [] := trivial
    obtain ⟨hchain, hw⟩ := wbcMakeSyncLoop_chain env fuel h0 hl
    have hs' : s' = (wbcFlushAncestorsTopdown env s1 L 0).1 := by rw [hflush]
    refine ⟨s1, L, hchain, ?_, ?_, fun a ha => ?_⟩
    · rw [← hw, ← wbcFlushAncestorsTopdown_written, hs']
    · rw [hs']
      exact (WritesInOrder.of_writes_eq hw).trans (wbcFlushAncestorsTopdown_in_order env L s1 hchain)
    · rw [hs']
      exact wbcFlushAncestorsTopdown_clears env L s1 0 ha

/-! ## The background flusher -/

/-- What `wbc_inode_check_parent` returns: `false` without a dentry, `true`
when the parent is written out, and otherwise whatever the uninitialised
`result` held. -/
theorem wbcInodeCheckParent_eq (garbage : Bool) (s : SyncState) (ino : Nat) :
    wbcInodeCheckParent garbage s ino =
      ((s.inode ino).hasAlias && (wbcInodeWrittenOut (s.parentFlags ino) || garbage)) := by
  unfold wbcInodeCheckParent wbcInodeWrittenOut
  by_cases ha : (s.inode ino).hasAlias = true
  · by_cases hn : s.parentFlags ino = WbcFlags.flNone
    · simp [ha, hn]
    · cases hs : (s.parentFlags ino).flSync <;> simp [ha, hn, hs]
  · simp [ha]

@[simp] theorem parentFlags_setState (s : SyncState) (ino : Nat) (a b : Bool) (j : Nat) :
    (s.setState ino a b).parentFlags j = s.parentFlags j := by
  unfold parentFlags
  rw [setState_dParent]
  by_cases h : (s.inode j).dParent = ino
  · rw [h]
    simp [setState]
  · simp [setState, Function.update_of_ne h]

/-- `__writeback_single_inode` of an inode whose parent is written out. -/
theorem writebackSingleInode_in_order (rc : Nat → Int) {s : SyncState} {ino : Nat}
    (h : wbcInodeWrittenOut (s.parentFlags ino) = true) : WritesInOrder s (writebackSingleInode rc s ino) := by
  unfold writebackSingleInode
  dsimp only
  split
  · refine (WritesInOrder.of_writes_eq rfl).trans (writeInode_in_order rc _ ino (.inr ?_))
    rwa [parentFlags_setState]
  · exact WritesInOrder.of_writes_eq rfl

/-- If the uninitialised `result` is false, the background flusher writes in
order: it writes an inode only after `wbc_inode_check_parent` has reported
its parent written out, and marking the inode `I_SYNC` changes no flags. -/
theorem wbcWritebackSbInodes_in_order (rc : Nat → Int) (sb : Nat) (workSb : Bool) :
    ∀ (fuel : Nat) (s : SyncState) (bIo bDirty : List Nat),
      WritesInOrder s (wbcWritebackSbInodes false rc sb workSb fuel s bIo bDirty).1 := by
  intro fuel
  induction fuel with
  | zero =>
    intro s bIo bDirty
    exact WritesInOrder.of_writes_eq rfl
  | succ fuel ih =>
    intro s bIo bDirty
    cases bIo with
    | nil => exact WritesInOrder.of_writes_eq rfl
    | cons ino bIo =>
      simp only [wbcWritebackSbInodes]
      split
      · split
        · exact ih s bIo _
        · exact WritesInOrder.of_writes_eq rfl
      · split
        · exact WritesInOrder.of_writes_eq rfl
        · rename_i hcheck
          have hparent : wbcInodeWrittenOut (s.parentFlags ino) = true := by
            rw [wbcInodeCheckParent_eq] at hcheck
            simp only [not_not, Bool.or_false, Bool.and_eq_true] at hcheck
            exact hcheck.2
          split
          · exact ih s bIo _
          · split
            · exact WritesInOrder.of_writes_eq rfl
            · -- the one write of the pass, then `requeue_inode` and `inode_sync_complete`
              have hw : WritesInOrder (s.setState ino true (s.inode ino).iDirty)
                  (writebackSingleInode rc (s.setState ino true (s.inode ino).iDirty) ino) :=
                writebackSingleInode_in_order rc (by rwa [parentFlags_setState])
              have h1 := (WritesInOrder.of_writes_eq rfl).trans hw
              split
              · exact (h1.trans (WritesInOrder.of_writes_eq rfl)).trans (ih _ _ _)
              · split
                · exact (h1.trans (WritesInOrder.of_writes_eq rfl)).trans (ih _ _ _)
                · exact (h1.trans (WritesInOrder.of_writes_eq rfl)).trans (ih _ _ _)

/-- What the two writers of a MemFS tree keep: `wbc_make_inode_sync`
writes a prefix of a chain of ancestors, each write in order, and leaves no
inode of the chain under `WRITEBACK`; the background flusher writes in order
when the uninitialised `result` reads as false. -/
def WritesParentsFirst (env : SyncEnv) (rc : Nat → Int) (sb : Nat) (workSb : Bool) : Prop :=
  (∀ fuel s s' d rcOut, wbcMakeInodeSync env fuel s d = .ok (s', rcOut) →
    ∃ s1 L, FlushChain s1 L ∧ s'.writes.map (·.ino) = s.writes.map (·.ino) ++ takeUntilFail env.rc L ∧
      WritesInOrder s s' ∧ ∀ a ∈ L, (s'.inode a).wbciFlags.flWriteback = false) ∧
  ∀ fuel s bIo bDirty, WritesInOrder s (wbcWritebackSbInodes false rc sb workSb fuel s bIo bDirty).1

/-- A Lustre directory, not cached (`WBC_STATE_FL_NONE`). -/
def lustreDir : SyncInode :=
  { wbciFlags := WbcFlags.flNone, iSync := false, iDirty := false, iNew := false, iFreeing := false,
    iWillFree := false, lockDrop := false, dParent := 0, hasAlias := true, iSb := 0 }

/-- A directory created in MemFS under it and not yet written out:
protected, complete and reserved, and dirty. -/
def memfsDir : SyncInode :=
  { lustreDir with
    wbciFlags := { WbcFlags.flNone with flProtected := true, flComplete := true, flInodeReserved := true },
    iDirty := true }

/-- A file created in that directory. -/
def memfsFile : SyncInode := { memfsDir with dParent := 1 }

/-- Inode 0 is the Lustre directory, 1 the MemFS directory, 2 the file. -/
def memfsTree : SyncState :=
  ⟨fun j => if j = 2 then memfsFile else if j = 1 then memfsDir else lustreDir, []⟩

/-- The background flusher takes the file first. Its directory is cached and
not synced, so `wbc_inode_check_parent` assigns nothing to `result`. If the
uninitialised value is true, the file is written to the MDT before its
directory. -/
theorem wbc_writeback_file_before_dir :
    wbcInodeWrittenOut (memfsTree.parentFlags 2) = false ∧ wbcInodeCheckParent true memfsTree 2 = true ∧
      (wbcWritebackSbInodes true (fun _ => 0) 0 false 1 memfsTree [2] []).1.writes =
        [⟨2, memfsFile.wbciFlags, memfsDir.wbciFlags⟩] ∧
      ¬ WritesInOrder memfsTree (wbcWritebackSbInodes true (fun _ => 0) 0 false 1 memfsTree [2] []).1 := by
  have hwrites : (wbcWritebackSbInodes true (fun _ => 0) 0 false 1 memfsTree [2] []).1.writes =
      [⟨2, memfsFile.wbciFlags, memfsDir.wbciFlags⟩] := by
    decide
  refine ⟨by decide, by decide, hwrites, ?_⟩
  rintro ⟨new, hw, ho⟩
  rw [hwrites] at hw
  -- the one write is the file's, with neither it nor its directory on the MDT
  have hnew : new = [⟨2, memfsFile.wbciFlags, memfsDir.wbciFlags⟩] := by
    simpa [memfsTree] using hw.symm
  have hbad := ho _ (by rw [hnew]; exact List.mem_singleton_self _)
  exact absurd hbad (by decide)

end Lustre.Wbc
