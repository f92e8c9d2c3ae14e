import Mathlib
import Lustre.Wbc.MemfsPages

/-! # What the page counter counts

`cachedPages` is what `wbcc_used_pages` is meant to be: the pages of the
inodes whose data is in MemFS. `PagesAccounted` says the counter is at least
that, with what keeps it so: the limit is set, and every allocation in
flight is on an inode whose data is in MemFS and will be charged.
`memfsPageStep_accounted` shows that every operation the callers may make
keeps it, so over every run the counter never goes below the pages it
counts, nor below zero (`memfs_run_pages_accounted`). It can go above them:
the Lustre commit refunds only the pages it did not discard, and a failed
PCC commit at eviction refunds nothing.

The counter can also go past the limit. `memfs_acct_page_race_exceeds_limit`
is the run: with one page left under the limit, two allocations on two
files both pass the comparison of `wbc_inode_acct_page` before either adds
to the counter, and both pages are allocated and counted.
-/

namespace Lustre.Wbc

open StepRun

/-! ## The pages in MemFS -/

/-- The pages of an inode whose data is in MemFS; none for any other. -/
def cachedNr : Option MemfsInode → Nat
  | some inode => if inode.wbcInodeDataCaching then inode.nrpages else 0
  | none => 0

/-- `Σ mapping->nrpages` over the inodes whose data is in MemFS. -/
def cachedPages (sb : MemfsSuper) : Nat := (sb.inodes.map cachedNr).sum

/-- Replacing one entry of a list changes the sum of `f` over it by the
difference. -/
theorem sum_map_set_add {α : Type} (f : α → Nat) :
    ∀ (l : List α) (n : Nat) (x y : α), l[n]? = some x → ((l.set n y).map f).sum + f x = (l.map f).sum + f y
  | [], _, _, _, h => by simp at h
  | a :: l, 0, x, y, h => by
    rw [List.getElem?_cons_zero, Option.some.injEq] at h
    subst h
    simp only [List.set_cons_zero, List.map_cons, List.sum_cons]
    omega
  | a :: l, n + 1, x, y, h => by
    rw [List.getElem?_cons_succ] at h
    simp only [List.set_cons_succ, List.map_cons, List.sum_cons]
    have := sum_map_set_add f l n x y h
    omega

section Inodes

variable {sb : MemfsSuper} {ino : Nat} {old : MemfsInode}

theorem getElem?_of_inodeAt (h : sb.inodeAt ino = some old) : sb.inodes[ino]? = some (some old) :=
  Option.join_eq_some_iff.mp h

/-- Setting the entry of an inode in core changes the pages in MemFS by the
difference. -/
theorem cachedPages_set (h : sb.inodeAt ino = some old) (e : Option MemfsInode) :
    cachedPages { sb with inodes := sb.inodes.set ino e } + cachedNr (some old) = cachedPages sb + cachedNr e :=
  sum_map_set_add cachedNr sb.inodes ino (some old) e (getElem?_of_inodeAt h)

theorem inodeAt_set_ne {j : Nat} (hne : j ≠ ino) (e : Option MemfsInode) :
    MemfsSuper.inodeAt { sb with inodes := sb.inodes.set ino e } j = sb.inodeAt j := by
  simp only [MemfsSuper.inodeAt, List.getElem?_set, if_neg (Ne.symm hne)]

theorem inodeAt_setInode_self (h : sb.inodeAt ino = some old) (inode : MemfsInode) :
    (sb.setInode ino inode).inodeAt ino = some inode := by
  have hlt : ino < sb.inodes.length := (List.getElem?_eq_some_iff.mp (getElem?_of_inodeAt h)).1
  simp [MemfsSuper.setInode, MemfsSuper.inodeAt, hlt]

@[simp] theorem setInode_getpages (inode : MemfsInode) : (sb.setInode ino inode).getpages = sb.getpages := rfl

@[simp] theorem setInode_wbccUsedPages (inode : MemfsInode) :
    (sb.setInode ino inode).wbccUsedPages = sb.wbccUsedPages := rfl

@[simp] theorem setInode_wbccMaxPages (inode : MemfsInode) :
    (sb.setInode ino inode).wbccMaxPages = sb.wbccMaxPages := rfl

end Inodes

/-! ## The counter -/

section Counter

variable {sb : MemfsSuper}

@[simp] theorem wbcInodeUnacctPages_inodes (n : Nat) : (wbcInodeUnacctPages sb n).inodes = sb.inodes := by
  unfold wbcInodeUnacctPages
  split <;> rfl

@[simp] theorem wbcInodeUnacctPages_getpages (n : Nat) : (wbcInodeUnacctPages sb n).getpages = sb.getpages := by
  unfold wbcInodeUnacctPages
  split <;> rfl

@[simp] theorem wbcInodeUnacctPages_wbccMaxPages (n : Nat) :
    (wbcInodeUnacctPages sb n).wbccMaxPages = sb.wbccMaxPages := by
  unfold wbcInodeUnacctPages
  split <;> rfl

@[simp] theorem wbcInodeUnacctPages_inodeAt (n j : Nat) : (wbcInodeUnacctPages sb n).inodeAt j = sb.inodeAt j := by
  rw [MemfsSuper.inodeAt, wbcInodeUnacctPages_inodes]
  rfl

theorem wbcInodeUnacctPages_used (hset : sb.wbccMaxPages ≠ 0) (n : Nat) :
    (wbcInodeUnacctPages sb n).wbccUsedPages = sb.wbccUsedPages - n := by
  rw [wbcInodeUnacctPages, if_pos hset]

theorem cachedPages_unacct (n : Nat) : cachedPages (wbcInodeUnacctPages sb n) = cachedPages sb := by
  rw [cachedPages, wbcInodeUnacctPages_inodes]
  rfl

theorem wbcInodeUnacctPages_zero : wbcInodeUnacctPages sb 0 = sb := by
  unfold wbcInodeUnacctPages
  split
  · simp
  · rfl

/-- A refund and a change of the inodes in core commute. -/
theorem wbcInodeUnacctPages_with_inodes (n : Nat) (l : List (Option MemfsInode)) :
    { wbcInodeUnacctPages sb n with inodes := l } = wbcInodeUnacctPages { sb with inodes := l } n := by
  unfold wbcInodeUnacctPages
  split <;> rfl

end Counter

/-! ## The invariant -/

/-- The counter covers the pages in MemFS, under a limit that is set, with
every allocation in flight on an inode whose data is in MemFS and to be
charged. -/
structure PagesAccounted (sb : MemfsSuper) : Prop where
  limit_set : sb.wbccMaxPages ≠ 0
  charge : ∀ call ∈ sb.getpages, call.charge = true
  caching : ∀ call ∈ sb.getpages, ∃ inode, sb.inodeAt call.ino = some inode ∧ inode.wbcInodeDataCaching = true
  used_ge : (cachedPages sb : Int) ≤ sb.wbccUsedPages

section Steps

variable {sb : MemfsSuper}

/-- Changing the entry of an idle inode and refunding at most the pages it
takes out of MemFS keeps the counter above the pages still there. -/
theorem PagesAccounted.refund (h : PagesAccounted sb) {ino : Nat} {old : MemfsInode}
    (hat : sb.inodeAt ino = some old) (hidle : sb.idle ino) (e : Option MemfsInode) {n : Nat}
    (hn : cachedNr e + n ≤ cachedNr (some old)) :
    PagesAccounted (wbcInodeUnacctPages { sb with inodes := sb.inodes.set ino e } n) := by
  have hsum := cachedPages_set hat e
  refine ⟨by simpa using h.limit_set, by simpa using h.charge, ?_, ?_⟩
  · intro call hcall
    rw [wbcInodeUnacctPages_getpages] at hcall
    rw [wbcInodeUnacctPages_inodeAt, inodeAt_set_ne (hidle call hcall)]
    exact h.caching call hcall
  · rw [cachedPages_unacct, @wbcInodeUnacctPages_used { sb with inodes := sb.inodes.set ino e } h.limit_set]
    dsimp only
    have := h.used_ge
    omega

/-- Changing the entry of an idle inode without a refund, when it takes no
pages into MemFS. -/
theorem PagesAccounted.replace (h : PagesAccounted sb) {ino : Nat} {old : MemfsInode}
    (hat : sb.inodeAt ino = some old) (hidle : sb.idle ino) (e : Option MemfsInode)
    (hn : cachedNr e ≤ cachedNr (some old)) : PagesAccounted { sb with inodes := sb.inodes.set ino e } := by
  have := h.refund hat hidle e (n := 0) (by omega)
  rwa [wbcInodeUnacctPages_zero] at this

theorem PagesAccounted.getpageCheck (h : PagesAccounted sb) {ino index : Nat} {r : Option Int} {sb' : MemfsSuper}
    (hcaching : (sb.inodeAt ino).any MemfsInode.wbcInodeDataCaching = true)
    (hs : memfsGetpageCheck sb ino index = some (r, sb')) : PagesAccounted sb' := by
  obtain ⟨inode, hat, hc⟩ := (Option.any_eq_true _ _).mp hcaching
  rw [memfsGetpageCheck, hat, Option.map_some, Option.some.injEq] at hs
  split_ifs at hs
  · rw [← (Prod.mk.inj hs).2]
    exact h
  · -- the call goes in flight, to be charged since the limit is set
    rw [← (Prod.mk.inj hs).2]
    refine ⟨h.limit_set, fun call hcall => ?_, fun call hcall => ?_, h.used_ge⟩
    · rcases List.mem_append.mp hcall with hcall | hcall
      · exact h.charge call hcall
      · rw [List.mem_singleton.mp hcall]
        exact decide_eq_true h.limit_set
    · rcases List.mem_append.mp hcall with hcall | hcall
      · exact h.caching call hcall
      · rw [List.mem_singleton.mp hcall]
        exact ⟨inode, hat, hc⟩
  · rw [← (Prod.mk.inj hs).2]
    exact h

/-- The allocation charges one page, then either puts it in the mapping of
an inode in MemFS or refunds it. -/
theorem PagesAccounted.getpageAlloc (h : PagesAccounted sb) {k : Nat} {allocOk addOk : Bool}
    {r : Option Int} {sb' : MemfsSuper} (hs : memfsGetpageAlloc sb k allocOk addOk = some (r, sb')) :
    PagesAccounted sb' := by
  unfold memfsGetpageAlloc at hs
  split at hs
  · cases hs
  · rename_i call hcall
    have hmem : call ∈ sb.getpages := List.mem_of_getElem? hcall
    obtain ⟨inode, hat, hc⟩ := h.caching call hmem
    -- the state once the call is out of flight and charged
    set sb₁ : MemfsSuper := wbcUsedPagesAdd { sb with getpages := sb.getpages.eraseIdx k } 1 with hsb₁
    have hrest : ∀ c ∈ sb₁.getpages, c ∈ sb.getpages := fun c hc => (List.eraseIdx_sublist _ k).subset hc
    have hat₁ : sb₁.inodeAt call.ino = some inode := hat
    have hused₁ : sb₁.wbccUsedPages = sb.wbccUsedPages + 1 := rfl
    have hcached₁ : cachedPages sb₁ = cachedPages sb := rfl
    have h₁ : PagesAccounted (wbcInodeUnacctPages sb₁ 1) := by
      refine ⟨?_, fun c hc => h.charge c (hrest c (by simpa using hc)), fun c hc => ?_, ?_⟩
      · rw [wbcInodeUnacctPages_wbccMaxPages]
        exact h.limit_set
      · rw [wbcInodeUnacctPages_inodeAt]
        exact h.caching c (hrest c (by simpa using hc))
      · rw [cachedPages_unacct, @wbcInodeUnacctPages_used sb₁ h.limit_set, hused₁, hcached₁]
        have := h.used_ge
        omega
    simp only [h.charge call hmem, if_true] at hs
    rw [← hsb₁, hat₁, Option.map_some, Option.some.injEq] at hs
    split_ifs at hs <;> rw [← (Prod.mk.inj hs).2]
    · exact h₁
    · exact h₁
    · exact h₁
    · -- the page goes in: one more page in MemFS, one more charged
      have hsum := cachedPages_set hat₁ (some { inode with pages := call.index :: inode.pages })
      have hc' : ({ inode with pages := call.index :: inode.pages } : MemfsInode).wbcInodeDataCaching = true := hc
      have hnr : cachedNr (some { inode with pages := call.index :: inode.pages }) = cachedNr (some inode) + 1 := by
        simp [cachedNr, hc, hc', MemfsInode.nrpages]
      refine ⟨h.limit_set, fun c hc' => h.charge c (hrest c hc'), fun c hc' => ?_, ?_⟩
      · by_cases hino : c.ino = call.ino
        · rw [hino, inodeAt_setInode_self hat₁]
          exact ⟨_, rfl, hc⟩
        · rw [MemfsSuper.setInode, inodeAt_set_ne hino]
          exact h.caching c (hrest c hc')
      · rw [setInode_wbccUsedPages, hused₁]
        have := h.used_ge
        change ((cachedPages { sb₁ with inodes := sb₁.inodes.set call.ino _ } : Nat) : Int) ≤ _
        rw [hcached₁] at hsum
        omega

end Steps

/-! ## The other operations -/

theorem cachedNr_of_caching {inode : MemfsInode} (hc : inode.wbcInodeDataCaching = true) :
    cachedNr (some inode) = inode.nrpages := by
  simp [cachedNr, hc]

theorem cachedNr_committed (inode : MemfsInode) : cachedNr (some { inode with flDataCommitted := true }) = 0 := by
  simp [cachedNr, MemfsInode.wbcInodeDataCaching]

/-- A truncate keeps an inode in MemFS, with what it drops taken off its pages. -/
theorem cachedNr_truncateSetsize {inode : MemfsInode} (hc : inode.wbcInodeDataCaching = true) (size : Nat) :
    cachedNr (some (truncateSetsize inode size)) + (inode.nrpages - (truncateSetsize inode size).nrpages) ≤
      cachedNr (some inode) := by
  have hc' : (truncateSetsize inode size).wbcInodeDataCaching = true := hc
  have hle : (truncateSetsize inode size).nrpages ≤ inode.nrpages := List.length_filter_le _ _
  rw [cachedNr_of_caching hc, cachedNr_of_caching hc']
  omega

section Others

variable {sb : MemfsSuper} {ino : Nat}

theorem PagesAccounted.writeEnd (h : PagesAccounted sb) (hidle : sb.idle ino) {pos copied : Nat} {sb' : MemfsSuper}
    (hs : memfsWriteEnd sb ino pos copied = some sb') : PagesAccounted sb' := by
  obtain ⟨inode, hat, hs⟩ := Option.map_eq_some_iff.mp hs
  rw [← hs]
  split_ifs
  · exact h.replace hat hidle _ (Nat.le_refl _)
  · exact h

theorem PagesAccounted.unlink (h : PagesAccounted sb) (hidle : sb.idle ino) {sb' : MemfsSuper}
    (hs : memfsDropNlink sb ino = some sb') : PagesAccounted sb' := by
  obtain ⟨inode, hat, hs⟩ := Option.map_eq_some_iff.mp hs
  rw [← hs]
  exact h.replace hat hidle _ (Nat.le_refl _)

/-- A truncate refunds what it drops when it shrinks the file, and nothing
otherwise. -/
theorem PagesAccounted.setattr (h : PagesAccounted sb) (hidle : sb.idle ino) {size : Nat} {sb' : MemfsSuper}
    (hs : memfsSetattr sb ino size = some sb') : PagesAccounted sb' := by
  obtain ⟨inode, hat, hs⟩ := Option.map_eq_some_iff.mp hs
  rw [← hs]
  split_ifs with hc hsize
  · exact h.refund hat hidle _ (cachedNr_truncateSetsize hc size)
  · exact h.replace hat hidle _ (Nat.le_trans (Nat.le_add_right _ _) (cachedNr_truncateSetsize hc size))
  · exact h

/-- What a commit can do: leave the super block as it was, or take the inode
out of MemFS and refund at most the pages it held. -/
theorem wbcfsCommitCachePages_cases {inode : MemfsInode} (hat : sb.inodeAt ino = some inode) {ok : Bool}
    {discarded : List Nat} {rc : Int} {sb' : MemfsSuper}
    (hs : wbcfsCommitCachePages sb ino ok discarded = some (rc, sb')) :
    sb' = sb ∨ ∃ c n, cachedNr (some c) = 0 ∧ n ≤ cachedNr (some inode) ∧
      sb' = wbcInodeUnacctPages { sb with inodes := sb.inodes.set ino (some c) } n := by
  rw [wbcfsCommitCachePages, hat, Option.map_some, Option.some.injEq] at hs
  by_cases hdone : (inode.flDataCommitted || inode.wbcInodeNone) = true
  · rw [if_pos hdone] at hs
    exact .inl (Prod.mk.inj hs).2.symm
  · rw [if_neg hdone] at hs
    -- data neither committed nor out of WBC is in MemFS
    have hc : inode.wbcInodeDataCaching = true := by
      cases hp : inode.flProtected <;> cases hd : inode.flDataCommitted <;>
        simp_all [MemfsInode.wbcInodeDataCaching, MemfsInode.wbcInodeNone]
    rw [cachedNr_of_caching hc]
    cases hmode : inode.wbciCacheMode <;> cases ok <;> simp only [hmode, Bool.false_eq_true, ↓reduceIte] at hs
    · exact .inl (Prod.mk.inj hs).2.symm
    · exact .inl (Prod.mk.inj hs).2.symm
    · -- a failing Lustre commit discards pages, and refunds what is left
      exact .inr ⟨_, _, cachedNr_committed _, List.length_filter_le _ _, (Prod.mk.inj hs).2.symm⟩
    · exact .inr ⟨_, _, cachedNr_committed _, Nat.le_refl _, (Prod.mk.inj hs).2.symm⟩
    · exact .inl (Prod.mk.inj hs).2.symm
    · exact .inr ⟨_, _, cachedNr_committed _, Nat.le_refl _, (Prod.mk.inj hs).2.symm⟩

theorem PagesAccounted.commit (h : PagesAccounted sb) (hidle : sb.idle ino) {ok : Bool} {discarded : List Nat}
    {rc : Int} {sb' : MemfsSuper} (hs : wbcfsCommitCachePages sb ino ok discarded = some (rc, sb')) :
    PagesAccounted sb' := by
  obtain ⟨inode, hat, -⟩ := Option.map_eq_some_iff.mp hs
  rcases wbcfsCommitCachePages_cases hat hs with rfl | ⟨c, n, hc, hn, rfl⟩
  · exact h
  · exact h.refund hat hidle _ (by omega)

/-- What an eviction can do: take the inode out of core, with a refund of at
most the pages it held in MemFS. -/
theorem memfsEvictInode_cases {inode : MemfsInode} (hat : sb.inodeAt ino = some inode) {ok : Bool}
    {discarded : List Nat} {sb' : MemfsSuper} (hs : memfsEvictInode sb ino ok discarded = some sb') :
    ∃ n, n ≤ cachedNr (some inode) ∧ sb' = wbcInodeUnacctPages { sb with inodes := sb.inodes.set ino none } n := by
  -- the inode taken out of core with no refund
  have hzero : { sb with inodes := sb.inodes.set ino none } =
      wbcInodeUnacctPages { sb with inodes := sb.inodes.set ino none } 0 := wbcInodeUnacctPages_zero.symm
  rw [memfsEvictInode, hat, Option.bind_some] at hs
  dsimp only at hs
  split at hs
  · exact ⟨0, Nat.zero_le _, by rw [← hzero, ← Option.some.inj hs]⟩
  · rename_i hlustre
    have hnc : inode.flDataCommitted = false := by
      simp only [MemfsInode.llDataInLustre, Bool.or_eq_true, not_or] at hlustre
      simpa using hlustre.2
    obtain ⟨sb₂, hfree, rfl⟩ := Option.map_eq_some_iff.mp hs
    rw [wbcFreeInodePagesFinal, hat, Option.bind_some] at hfree
    by_cases hprot : inode.flProtected = true
    · have hc : inode.wbcInodeDataCaching = true := by simp [MemfsInode.wbcInodeDataCaching, hprot, hnc]
      rw [if_pos hprot, hnc, Bool.false_and, if_neg Bool.false_ne_true] at hfree
      by_cases hnlink : inode.iNlink ≠ 0
      · -- a linked inode is committed first
        rw [if_pos hnlink] at hfree
        cases hcom : wbcfsCommitCachePages sb ino ok discarded with
        | none =>
          rw [hcom] at hfree
          cases hfree
        | some res =>
          rw [hcom, Option.map_some, Option.some.injEq] at hfree
          subst hfree
          rcases wbcfsCommitCachePages_cases hat hcom with heq | ⟨c, n, -, hn, heq⟩
          · rw [heq]
            exact ⟨0, Nat.zero_le _, hzero⟩
          · refine ⟨n, hn, ?_⟩
            rw [heq, wbcInodeUnacctPages_inodes, wbcInodeUnacctPages_with_inodes]
            dsimp only
            rw [List.set_set]
      · -- an unlinked one is refunded all its pages
        rw [if_neg hnlink, Option.some.injEq] at hfree
        refine ⟨inode.nrpages, Nat.le_of_eq (cachedNr_of_caching hc).symm, ?_⟩
        rw [← hfree, wbcInodeUnacctPages_inodes, wbcInodeUnacctPages_with_inodes]
    · -- data not in Lustre is protected
      simp [MemfsInode.llDataInLustre, MemfsInode.wbcInodeNone, hprot, hnc] at hlustre

theorem PagesAccounted.evict (h : PagesAccounted sb) (hidle : sb.idle ino) {ok : Bool} {discarded : List Nat}
    {sb' : MemfsSuper} (hs : memfsEvictInode sb ino ok discarded = some sb') : PagesAccounted sb' := by
  obtain ⟨inode, hat, -⟩ := Option.bind_eq_some_iff.mp hs
  obtain ⟨n, hn, rfl⟩ := memfsEvictInode_cases hat hs
  exact h.refund hat hidle none (by simpa [cachedNr] using hn)

theorem PagesAccounted.confUpdate (h : PagesAccounted sb) {maxPages maxNrpagesPerFile : Option Nat}
    (hm : maxPages ≠ some 0) : PagesAccounted (wbcSuperConfUpdatePages sb maxPages maxNrpagesPerFile).2 := by
  unfold wbcSuperConfUpdatePages
  split
  · rename_i m
    split
    · exact h
    · exact { h with limit_set := fun h0 => hm (congrArg some h0) }
  · exact { h with }

end Others

/-! ## Runs -/

/-- Every operation the callers may make keeps the counter above the pages
in MemFS. -/
theorem memfsPageStep_accounted {sb : MemfsSuper} (h : PagesAccounted sb) :
    ∀ op, MemfsPageAllowed sb op → ∀ r sb', memfsPageStep sb op = some (r, sb') → PagesAccounted sb'
  | .getpageCheck _ _, ha, _, _, hs => h.getpageCheck ha.2 hs
  | .getpageAlloc _ _ _, _, _, _, hs => h.getpageAlloc hs
  | .writeEnd _ _ _, ha, _, _, hs => by
    obtain ⟨sb₁, hw, heq⟩ := Option.map_eq_some_iff.mp hs
    rw [← (Prod.mk.inj heq).2]
    exact h.writeEnd ha hw
  | .setattr _ _, ha, _, _, hs => by
    obtain ⟨sb₁, hw, heq⟩ := Option.map_eq_some_iff.mp hs
    rw [← (Prod.mk.inj heq).2]
    exact h.setattr ha hw
  | .commit _ _ _, ha, _, _, hs => by
    obtain ⟨⟨rc, sb₁⟩, hw, heq⟩ := Option.map_eq_some_iff.mp hs
    rw [← (Prod.mk.inj heq).2]
    exact h.commit ha hw
  | .evict _ _ _, ha, _, _, hs => by
    obtain ⟨sb₁, hw, heq⟩ := Option.map_eq_some_iff.mp hs
    rw [← (Prod.mk.inj heq).2]
    exact h.evict ha hw
  | .unlink _, ha, _, _, hs => by
    obtain ⟨sb₁, hw, heq⟩ := Option.map_eq_some_iff.mp hs
    rw [← (Prod.mk.inj heq).2]
    exact h.unlink ha hw
  | .confUpdate _ _, ha, _, _, hs => by
    rw [memfsPageStep, Option.some.injEq] at hs
    rw [← (Prod.mk.inj hs).2]
    exact h.confUpdate ha

/-- Over every run of the operations the callers may make, the counter stays
above the pages in MemFS, and so never goes below zero. -/
theorem memfs_run_pages_accounted {sb : MemfsSuper} (h : PagesAccounted sb) {ops : List MemfsPageOp}
    (hrun : AllowedRun memfsPageStep MemfsPageAllowed sb ops) {rs : List (Option Int)} {sb' : MemfsSuper}
    (hr : run memfsPageStep sb ops = some (rs, sb')) :
    (cachedPages sb' : Int) ≤ sb'.wbccUsedPages ∧ 0 ≤ sb'.wbccUsedPages := by
  have h' := run_inv memfsPageStep MemfsPageAllowed PagesAccounted
    (fun sb op r sb' ha h hs => memfsPageStep_accounted h op ha r sb' hs) ops sb rs sb' hrun h hr
  exact ⟨h'.used_ge, Int.le_trans (Int.natCast_nonneg _) h'.used_ge⟩

/-- One file under a limit of four pages: a page allocated, then the file
unlinked. -/
theorem memfs_run_pages_accounted_one_file :
    PagesAccounted ⟨4, 16, 0, [some ⟨[], 0, true, false, .memfs, 1⟩], []⟩ ∧
      AllowedRun memfsPageStep MemfsPageAllowed ⟨4, 16, 0, [some ⟨[], 0, true, false, .memfs, 1⟩], []⟩
        [.getpageCheck 0 0, .getpageAlloc 0 true true, .unlink 0] ∧
      ∃ rs sb', run memfsPageStep ⟨4, 16, 0, [some ⟨[], 0, true, false, .memfs, 1⟩], []⟩
          [.getpageCheck 0 0, .getpageAlloc 0 true true, .unlink 0] = some (rs, sb') ∧
        (cachedPages sb' : Int) ≤ sb'.wbccUsedPages ∧ 0 ≤ sb'.wbccUsedPages := by
  have h : PagesAccounted ⟨4, 16, 0, [some ⟨[], 0, true, false, .memfs, 1⟩], []⟩ :=
    ⟨by decide, fun _ h => (by cases h), fun _ h => (by cases h), by decide⟩
  have hrun : AllowedRun memfsPageStep MemfsPageAllowed ⟨4, 16, 0, [some ⟨[], 0, true, false, .memfs, 1⟩], []⟩
      [.getpageCheck 0 0, .getpageAlloc 0 true true, .unlink 0] :=
    allowedRun_cons_of_step memfsPageStep MemfsPageAllowed (by decide) rfl <|
      allowedRun_cons_of_step memfsPageStep MemfsPageAllowed (by decide) rfl <|
      allowedRun_cons_of_step memfsPageStep MemfsPageAllowed (by decide) rfl trivial
  obtain ⟨⟨rs, sb'⟩, hr⟩ : ∃ r, run memfsPageStep ⟨4, 16, 0, [some ⟨[], 0, true, false, .memfs, 1⟩], []⟩
      [.getpageCheck 0 0, .getpageAlloc 0 true true, .unlink 0] = some r := ⟨_, rfl⟩
  exact ⟨h, hrun, rs, sb', hr, memfs_run_pages_accounted h hrun hr⟩

/-- With one page left under the limit, allocations on two files both pass
the comparison of `wbc_inode_acct_page` before either adds to the counter:
both pages are allocated, and the counter, which counts them right, is past
the limit. -/
theorem memfs_acct_page_race_exceeds_limit :
    AllowedRun memfsPageStep MemfsPageAllowed
        ⟨1, 16, 0, [some ⟨[], 0, true, false, .memfs, 1⟩, some ⟨[], 0, true, false, .memfs, 1⟩], []⟩
        [.getpageCheck 0 0, .getpageCheck 1 0, .getpageAlloc 0 true true, .getpageAlloc 0 true true] ∧
      ∃ rs sb', run memfsPageStep
          ⟨1, 16, 0, [some ⟨[], 0, true, false, .memfs, 1⟩, some ⟨[], 0, true, false, .memfs, 1⟩], []⟩
          [.getpageCheck 0 0, .getpageCheck 1 0, .getpageAlloc 0 true true, .getpageAlloc 0 true true] =
            some (rs, sb') ∧
        rs = [none, none, some 0, some 0] ∧ cachedPages sb' = 2 ∧ sb'.wbccUsedPages = 2 ∧ sb'.wbccMaxPages = 1 := by
  refine ⟨?_, _, _, rfl, by decide⟩
  exact allowedRun_cons_of_step memfsPageStep MemfsPageAllowed (by decide) rfl <|
    allowedRun_cons_of_step memfsPageStep MemfsPageAllowed (by decide) rfl <|
    allowedRun_cons_of_step memfsPageStep MemfsPageAllowed (by decide) rfl <|
    allowedRun_cons_of_step memfsPageStep MemfsPageAllowed (by decide) rfl trivial

end Lustre.Wbc
