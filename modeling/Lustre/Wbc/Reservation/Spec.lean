import Mathlib
import Lustre.Wbc.Reservation
import Lustre.Lib.CArith

/-! # What the inode limit keeps, and where it does not

The inode limit is meant to count reservations: under a limit,
`wbcc_max_inodes - wbcc_free_inodes` is the number of inodes that hold one,
so the free count never exceeds the limit and `wbc_super_disable_cache`
finds the two equal once every reservation is back. An inode holds a
reservation while it is flagged `WBC_STATE_FL_INODE_RESERVED`.

`Accounted` states this of a super block. Every function of the model moves
the counters and the flags in one of three ways: it leaves both alone, it
takes an inode from the limit, or it gives back the reservation of a flagged
inode and clears the flag. From these lemmas:

* `wbcStep_accounted`: every operation keeps `Accounted`, except a create
  that fails once its reservation is taken and setting a limit while flagged
  inodes exist; `wbc_run_accounted` extends it to every run of the other
  operations;
* a run of three operations from a cached root that ends with more inodes
  free than the limit allows, and the assertion of
  `wbc_super_disable_cache` failing.
-/

namespace Lustre.Wbc

open WbcSuper

/-! ## The invariant -/

/-- The counters of a limit from which `taken` inodes are out: the free
count is at most the limit and, under a limit, the difference is `taken`.
Without a limit the free count is 0. -/
def Balanced (conf : WbcConf) (taken : Nat) : Prop :=
  conf.wbccFreeInodes ≤ conf.wbccMaxInodes ∧
    (conf.wbccMaxInodes ≠ 0 → (conf.wbccMaxInodes - conf.wbccFreeInodes).toNat = taken)

/-- What has been taken from the limit is what the flags say. -/
def Accounted (s : WbcSuper) : Prop := Balanced s.wbcsConf (reservedCount s)

/-- The counters after `wbc_reserve_inode` took an inode. -/
def takeConf (conf : WbcConf) : WbcConf :=
  if conf.wbccMaxInodes ≠ 0 then { conf with wbccFreeInodes := conf.wbccFreeInodes - 1 } else conf

/-- The counters after a reservation is given back, by `wbc_unreserve_inode`
or `wbc_reserved_inode_lru_del`. -/
def releaseConf (conf : WbcConf) : WbcConf :=
  if conf.wbccMaxInodes ≠ 0 then { conf with wbccFreeInodes := conf.wbccFreeInodes + 1 } else conf

section Balanced

variable {conf : WbcConf} {n : Nat}

/-- `Balanced` in natural numbers: since the free count is below the limit,
the unsigned difference does not wrap. -/
theorem balanced_iff : Balanced conf n ↔ conf.wbccFreeInodes.toNat ≤ conf.wbccMaxInodes.toNat ∧
    (conf.wbccMaxInodes.toNat ≠ 0 → conf.wbccMaxInodes.toNat - conf.wbccFreeInodes.toNat = n) := by
  have hne : conf.wbccMaxInodes ≠ 0 ↔ conf.wbccMaxInodes.toNat ≠ 0 := by
    simp [← UInt64.toNat_inj]
  unfold Balanced
  rw [UInt64.le_iff_toNat_le, hne]
  constructor
  · rintro ⟨hle, hn⟩
    refine ⟨hle, fun h0 => ?_⟩
    rw [← UInt64.toNat_sub_of_le _ _ (UInt64.le_iff_toNat_le.mpr hle)]
    exact hn h0
  · rintro ⟨hle, hn⟩
    refine ⟨hle, fun h0 => ?_⟩
    rw [UInt64.toNat_sub_of_le _ _ (UInt64.le_iff_toNat_le.mpr hle)]
    exact hn h0

/-- Taking an inode from a limit that has one left. -/
theorem Balanced.take (h : Balanced conf n)
    (hfree : conf.wbccMaxInodes ≠ 0 → conf.wbccFreeInodes ≠ 0) : Balanced (takeConf conf) (n + 1) := by
  unfold takeConf
  split
  · rename_i hmax
    have hf : 1 ≤ conf.wbccFreeInodes.toNat := by
      have := hfree hmax
      simp only [ne_eq, ← UInt64.toNat_inj] at this
      simp only [UInt64.toNat_zero] at this
      omega
    have hsub : (conf.wbccFreeInodes - 1).toNat = conf.wbccFreeInodes.toNat - 1 :=
      UInt64.toNat_sub_of_le _ _ (UInt64.le_iff_toNat_le.mpr hf)
    rw [balanced_iff] at h ⊢
    dsimp only
    rw [hsub]
    omega
  · -- without a limit nothing is counted
    rename_i hmax
    exact ⟨h.1, fun h0 => absurd h0 hmax⟩

/-- Giving back an inode to a limit from which at least one is out. -/
theorem Balanced.release (h : Balanced conf (n + 1)) : Balanced (releaseConf conf) n := by
  unfold releaseConf
  split
  · rename_i hmax
    rw [balanced_iff] at h ⊢
    have hmax' : conf.wbccMaxInodes.toNat ≠ 0 := by simpa [← UInt64.toNat_inj] using hmax
    -- one inode is out, so the free count is below the limit and `+ 1` does not wrap
    have hlt := UInt64.toNat_lt conf.wbccMaxInodes
    have hadd : (conf.wbccFreeInodes + 1).toNat = conf.wbccFreeInodes.toNat + 1 := by
      rw [UInt64.toNat_add]
      simp only [UInt64.toNat_one]
      omega
    dsimp only
    rw [hadd]
    omega
  · rename_i hmax
    exact ⟨h.1, fun h0 => absurd h0 hmax⟩

/-- With both counters reset there is no limit. -/
theorem balanced_zero (n : Nat) : Balanced ⟨0, 0⟩ n :=
  ⟨UInt64.le_refl 0, fun h0 => absurd rfl h0⟩

end Balanced

/-! ## Counting the flags -/

section Count

variable (s : WbcSuper) (ino : Nat) (f : WbcInode → WbcInode)

/-- Replacing an in-core inode changes the count by the flags of the old and
the new value. -/
theorem reservedCount_set (x : Option WbcInode) (h : ino < s.inodes.length) :
    reservedCount { s with inodes := s.inodes.set ino x } + (if reservedOf (s.inode ino) then 1 else 0) =
      reservedCount s + (if reservedOf x then 1 else 0) := by
  have hi : s.inode ino = s.inodes[ino] := by
    unfold inode
    rw [List.getD_eq_getElem?_getD, List.getElem?_eq_getElem h]
    rfl
  have hpos : (if reservedOf s.inodes[ino] then 1 else 0) ≤ s.inodes.countP reservedOf := by
    split
    · exact List.countP_pos_iff.mpr ⟨_, List.getElem_mem h, ‹_›⟩
    · exact Nat.zero_le _
  unfold reservedCount
  dsimp only
  rw [List.countP_set h, hi]
  omega

theorem reservedCount_modifyInode :
    reservedCount (s.modifyInode ino f) + (if reservedOf (s.inode ino) then 1 else 0) =
      reservedCount s + (if reservedOf ((s.inode ino).map f) then 1 else 0) := by
  rcases Nat.lt_or_ge ino s.inodes.length with h | h
  · exact reservedCount_set s ino _ h
  · -- past the end of the table nothing changes
    simp [modifyInode, reservedCount, inode_of_length_le h, reservedOf, List.set_eq_of_length_le h]

/-- A change that keeps the flag keeps the count. -/
theorem reservedCount_modifyInode_of_keep (hf : ∀ i, (f i).flInodeReserved = i.flInodeReserved) :
    reservedCount (s.modifyInode ino f) = reservedCount s := by
  have h := reservedCount_modifyInode s ino f
  have hkeep : reservedOf ((s.inode ino).map f) = reservedOf (s.inode ino) := by
    cases s.inode ino <;> simp [reservedOf, hf]
  rw [hkeep] at h
  omega

/-- A change that clears the flag takes the inode off the count if it was
on it. -/
theorem reservedCount_modifyInode_of_clear (hf : ∀ i, (f i).flInodeReserved = false) :
    reservedCount (s.modifyInode ino f) + (if reservedOf (s.inode ino) then 1 else 0) =
      reservedCount s := by
  have h := reservedCount_modifyInode s ino f
  have hclear : reservedOf ((s.inode ino).map f) = false := by
    cases s.inode ino <;> simp [reservedOf, hf]
  simpa [hclear] using h

theorem reservedOf_modifyInode_of_clear (hf : ∀ i, (f i).flInodeReserved = false) :
    reservedOf ((s.modifyInode ino f).inode ino) = false := by
  rw [inode_modifyInode_self]
  cases s.inode ino <;> simp [reservedOf, hf]

/-- Dropping an inode from core takes it off the count if it was on it. -/
theorem reservedCount_set_none :
    reservedCount { s with inodes := s.inodes.set ino none } + (if reservedOf (s.inode ino) then 1 else 0) =
      reservedCount s := by
  rcases Nat.lt_or_ge ino s.inodes.length with h | h
  · simpa [reservedOf] using reservedCount_set s ino none h
  · simp [reservedCount, inode_of_length_le h, reservedOf, List.set_eq_of_length_le h]

theorem reservedCount_append (i : WbcInode) :
    reservedCount { s with inodes := s.inodes ++ [some i] } =
      reservedCount s + (if i.flInodeReserved then 1 else 0) := by
  cases hi : i.flInodeReserved <;> simp [reservedCount, List.countP_append, reservedOf, hi]

end Count

/-! ## How each function moves the counters and the flags -/

section Functions

variable {s s' : WbcSuper} {ino dir nameLen : Nat}

/-- Neither counter nor flag changes. -/
theorem Accounted.of_eq (h : Accounted s) (hc : s'.wbcsConf = s.wbcsConf)
    (hn : reservedCount s' = reservedCount s) : Accounted s' := by
  unfold Accounted
  rw [hc, hn]
  exact h

/-- One flagged inode is given back. -/
theorem Accounted.release (h : Accounted s) (hc : s'.wbcsConf = releaseConf s.wbcsConf)
    (hn : reservedCount s' + 1 = reservedCount s) : Accounted s' := by
  unfold Accounted at h ⊢
  rw [hc]
  rw [← hn] at h
  exact h.release

theorem wbcReserveInode_eq_some (h : wbcReserveInode s = some s') :
    s' = s.setConf (takeConf s.wbcsConf) ∧
      (s.wbcsConf.wbccMaxInodes ≠ 0 → s.wbcsConf.wbccFreeInodes ≠ 0) := by
  unfold wbcReserveInode at h
  by_cases hmax : s.wbcsConf.wbccMaxInodes ≠ 0
  · rw [if_pos hmax] at h
    split at h
    · cases h
    · cases h
      exact ⟨by simp [takeConf, hmax], fun _ => ‹_›⟩
  · -- no limit: `wbc_reserve_inode` does nothing
    rw [if_neg hmax] at h
    cases h
    exact ⟨by simp [takeConf, hmax, setConf], fun h => absurd h hmax⟩

@[simp] theorem reservedCount_setConf (conf : WbcConf) : reservedCount (s.setConf conf) = reservedCount s := rfl

theorem wbcUnreserveInode_wbcsConf (s : WbcSuper) (ino : Nat) :
    (wbcUnreserveInode s ino).wbcsConf = releaseConf s.wbcsConf := by
  unfold wbcUnreserveInode releaseConf
  by_cases hmax : s.wbcsConf.wbccMaxInodes = 0 <;> simp [hmax]

theorem wbcUnreserveInode_inodes (s : WbcSuper) (ino : Nat) :
    (wbcUnreserveInode s ino).inodes =
      (s.modifyInode ino fun i => { i with flInodeReserved := false }).inodes := by
  unfold wbcUnreserveInode
  by_cases hmax : s.wbcsConf.wbccMaxInodes = 0 <;> simp [hmax]

theorem reservedCount_wbcUnreserveInode (s : WbcSuper) (ino : Nat) :
    reservedCount (wbcUnreserveInode s ino) + (if reservedOf (s.inode ino) then 1 else 0) =
      reservedCount s := by
  have h := reservedCount_modifyInode_of_clear s ino (fun i => { i with flInodeReserved := false })
    fun _ => rfl
  unfold reservedCount at h ⊢
  rwa [wbcUnreserveInode_inodes]

theorem reservedOf_wbcUnreserveInode (s : WbcSuper) (ino : Nat) :
    reservedOf ((wbcUnreserveInode s ino).inode ino) = false := by
  have h := reservedOf_modifyInode_of_clear s ino (fun i => { i with flInodeReserved := false })
    fun _ => rfl
  unfold inode at h ⊢
  rwa [wbcUnreserveInode_inodes]

/-- `wbc_unreserve_inode` of a flagged inode. -/
theorem wbcUnreserveInode_accounted (h : Accounted s) (hr : reservedOf (s.inode ino) = true) :
    Accounted (wbcUnreserveInode s ino) :=
  h.release (wbcUnreserveInode_wbcsConf s ino) (by simpa [hr] using reservedCount_wbcUnreserveInode s ino)

/-- What `wbc_free_inode` and `wbc_mark_inode_deroot` do to the reservation:
`wbc_unreserve_inode` when the inode is flagged. Afterwards it is not. -/
theorem unreserve_if_reserved_accounted (h : Accounted s) (ino : Nat) :
    Accounted (if reservedOf (s.inode ino) then wbcUnreserveInode s ino else s) := by
  split
  · exact wbcUnreserveInode_accounted h ‹_›
  · exact h

theorem reservedOf_unreserve_if_reserved :
    reservedOf ((if reservedOf (s.inode ino) then wbcUnreserveInode s ino else s).inode ino) = false := by
  split
  · exact reservedOf_wbcUnreserveInode s ino
  · rename_i hr
    simpa using hr

@[simp] theorem wbcReservedInodeLruAdd_wbcsConf :
    (wbcReservedInodeLruAdd s ino).wbcsConf = s.wbcsConf := by
  unfold wbcReservedInodeLruAdd
  split <;> rfl

@[simp] theorem reservedCount_wbcReservedInodeLruAdd :
    reservedCount (wbcReservedInodeLruAdd s ino) = reservedCount s := by
  unfold wbcReservedInodeLruAdd
  split <;> rfl

@[simp] theorem reservedCount_wbcReservedInodeLruDel :
    reservedCount (wbcReservedInodeLruDel s ino) = reservedCount s := by
  unfold wbcReservedInodeLruDel
  split <;> rfl

theorem wbcSuperRootDel_eq (h : wbcSuperRootDel s ino = some s') : s' = s := by
  unfold wbcSuperRootDel at h
  split at h
  · cases h
    rfl
  · cases h

theorem wbcFreeInode_eq (h : wbcFreeInode s ino = some s') :
    s' = if reservedOf (s.inode ino) then wbcUnreserveInode s ino else s := by
  unfold wbcFreeInode at h
  obtain ⟨i, hi, h⟩ := Option.bind_eq_some_iff.mp h
  dsimp only at h
  have hr : reservedOf (s.inode ino) = i.flInodeReserved := by simp [reservedOf, hi]
  rw [hr]
  -- the root list is not modelled: `wbc_super_root_del` keeps the state or trips its assertion
  split at h
  · obtain ⟨s1, hs1, h⟩ := Option.bind_eq_some_iff.mp h
    rw [wbcSuperRootDel_eq hs1] at h
    exact (Option.some.inj h).symm
  · exact (Option.some.inj h).symm

theorem wbcFreeInode_accounted (h : Accounted s) (hf : wbcFreeInode s ino = some s') : Accounted s' := by
  rw [wbcFreeInode_eq hf]
  exact unreserve_if_reserved_accounted h ino

theorem reservedOf_wbcFreeInode (hf : wbcFreeInode s ino = some s') : reservedOf (s'.inode ino) = false := by
  rw [wbcFreeInode_eq hf]
  exact reservedOf_unreserve_if_reserved

/-- `wbc_inode_unreserve_dput` clears the flag itself, then
`wbc_unreserve_inode` clears it again and gives back the inode once. -/
theorem wbcInodeUnreserveDput_accounted (h : Accounted s) : Accounted (wbcInodeUnreserveDput s ino) := by
  unfold wbcInodeUnreserveDput
  split
  · rename_i hr
    have hn1 := reservedCount_modifyInode_of_clear s ino (fun i => { i with flInodeReserved := false })
      fun _ => rfl
    have hr1 := reservedOf_modifyInode_of_clear s ino (fun i => { i with flInodeReserved := false })
      fun _ => rfl
    rw [if_pos hr] at hn1
    set s1 := s.modifyInode ino (fun i => { i with flInodeReserved := false })
    have hn2 := reservedCount_wbcUnreserveInode s1 ino
    rw [hr1] at hn2
    apply Accounted.release h
    · rw [modifyInode_wbcsConf, wbcUnreserveInode_wbcsConf, modifyInode_wbcsConf]
    · dsimp only
      rw [reservedCount_modifyInode_of_keep _ _ (fun i => { i with pinned := false }) fun _ => rfl]
      simp only [Bool.false_eq_true, if_false, Nat.add_zero] at hn2
      omega
  · exact h

/-- `wbc_mark_inode_deroot`: the reservation goes back first, so clearing
every flag afterwards changes no count. -/
theorem wbcMarkInodeDeroot_accounted (h : Accounted s) (hd : wbcMarkInodeDeroot s ino = some s') :
    Accounted s' := by
  unfold wbcMarkInodeDeroot at hd
  obtain ⟨s1, hs1, hd⟩ := Option.bind_eq_some_iff.mp hd
  rw [wbcSuperRootDel_eq hs1] at hd
  cases hd
  have hn := reservedCount_modifyInode_of_clear
    (if reservedOf (s.inode ino) then wbcUnreserveInode s ino else s) ino
    (fun i => { i with flProtected := false, flComplete := false, flInodeReserved := false, flRoot := false })
    fun _ => rfl
  rw [reservedOf_unreserve_if_reserved] at hn
  exact (unreserve_if_reserved_accounted h ino).of_eq rfl (by simpa using hn)

theorem wbcMakeInodeDecomplete_accounted (h : Accounted s) (hd : wbcMakeInodeDecomplete s dir = some s') :
    Accounted s' := by
  unfold wbcMakeInodeDecomplete at hd
  obtain ⟨d, -, hd⟩ := Option.bind_eq_some_iff.mp hd
  split at hd
  · -- lock-drop mode without the root lock: nothing to do, or the assertion trips
    split at hd
    · cases hd
    · cases hd
      exact h
  · split at hd
    · cases hd
      exact h
    · split at hd
      · exact wbcMarkInodeDeroot_accounted h hd
      · cases hd
        exact h.of_eq rfl (reservedCount_modifyInode_of_keep _ _ (fun d => { d with flComplete := false })
          fun _ => rfl)

@[simp] theorem wbcDirentAccountInc_wbcsConf : (wbcDirentAccountInc s dir nameLen).wbcsConf = s.wbcsConf :=
  rfl

@[simp] theorem reservedCount_wbcDirentAccountInc :
    reservedCount (wbcDirentAccountInc s dir nameLen) = reservedCount s :=
  reservedCount_modifyInode_of_keep _ _ _ fun _ => rfl

theorem wbcDirentAccountDec_eq (h : wbcDirentAccountDec s dir nameLen = some s') :
    s'.wbcsConf = s.wbcsConf ∧ reservedCount s' = reservedCount s := by
  unfold wbcDirentAccountDec at h
  obtain ⟨d, -, h⟩ := Option.bind_eq_some_iff.mp h
  split at h
  · cases h
  · cases h
    exact ⟨rfl, reservedCount_modifyInode_of_keep _ _ _ fun _ => rfl⟩

/-- The reclaim loop: each pass takes an inode off the LRU, which touches
neither counters nor flags, and may decomplete its parent. -/
theorem reclaimLoop_accounted (low : UInt64) (fuel : Nat) :
    ∀ {s s' : WbcSuper}, Accounted s → reclaimLoop low fuel s = some s' → Accounted s' := by
  induction fuel with
  | zero =>
    intro s s' h hr
    cases hr
    exact h
  | succ fuel ih =>
    intro s s' h hr
    unfold reclaimLoop at hr
    split at hr
    · split at hr
      · cases hr
        exact h
      · rename_i ino lru _
        have h1 : Accounted { s with wbcsRsvdInodeLru := lru } := h
        dsimp only at hr
        split at hr
        · split at hr
          · obtain ⟨s2, hs2, hr⟩ := Option.bind_eq_some_iff.mp hr
            exact ih (wbcMakeInodeDecomplete_accounted h1 hs2) hr
          · exact ih h1 hr
        · exact ih h1 hr
    · cases hr
      exact h

theorem wbcReclaimInodes_accounted (h : Accounted s) (hr : wbcReclaimInodes s = some s') : Accounted s' :=
  reclaimLoop_accounted _ _ h hr

/-- `memfs_remove_from_dcache` in a complete directory gives back the
child's reservation; elsewhere only the dentry goes. -/
theorem memfsRemove_accounted (h : Accounted s) (hr : memfsRemove s dir ino = some s') : Accounted s' := by
  unfold memfsRemove at hr
  obtain ⟨d, -, hr⟩ := Option.bind_eq_some_iff.mp hr
  split at hr
  · split at hr
    · cases hr
    · obtain ⟨s1, hs1, hr⟩ := Option.bind_eq_some_iff.mp hr
      cases hr
      obtain ⟨hc, hn⟩ := wbcDirentAccountDec_eq hs1
      have h1 : Accounted s1 := (wbcInodeUnreserveDput_accounted h).of_eq hc hn
      exact h1.of_eq rfl (reservedCount_modifyInode_of_keep _ _ _ fun _ => rfl)
  · split at hr
    · cases hr
      exact h.of_eq rfl (reservedCount_modifyInode_of_keep _ _ _ fun _ => rfl)
    · cases hr
      exact h

end Functions

/-! ## Creates -/

section Create

variable {s s' : WbcSuper} {dir nameLen : Nat} {opc : CreateOpc} {outcome : NewNodeOutcome} {rc : Int}

/-- `wbc_cache_enter` either reserves an inode and returns 1, or returns 0
with the directory left as it was or decompleted. -/
theorem wbcCacheEnter_eq_some (h : wbcCacheEnter s dir = some (rc, s')) :
    (rc = 1 ∧ wbcReserveInode s = some s') ∨
      (rc = 0 ∧ (s' = s ∨ wbcMakeInodeDecomplete s dir = some s')) := by
  unfold wbcCacheEnter at h
  obtain ⟨d, -, h⟩ := Option.bind_eq_some_iff.mp h
  split at h
  · cases h
    exact .inr ⟨rfl, .inl rfl⟩
  · split at h
    · rename_i s1 hs1
      cases h
      exact .inl ⟨rfl, hs1⟩
    · obtain ⟨s1, hs1, h⟩ := Option.bind_eq_some_iff.mp h
      cases h
      exact .inr ⟨rfl, .inr hs1⟩

/-- A create either runs `wbc_new_node` on a reservation, or returns 0 from
`wbc_cache_enter`. -/
theorem memfsCreate_eq_some (h : memfsCreate s opc dir nameLen outcome = some (rc, s')) :
    (∃ s1, wbcReserveInode s = some s1 ∧ wbcNewNode s1 dir nameLen opc outcome = some (rc, s')) ∨
      (rc = 0 ∧ (s' = s ∨ wbcMakeInodeDecomplete s dir = some s')) := by
  unfold memfsCreate at h
  obtain ⟨⟨rc1, s1⟩, he, h⟩ := Option.bind_eq_some_iff.mp h
  rcases wbcCacheEnter_eq_some he with ⟨rfl, hs1⟩ | ⟨rfl, hs1⟩
  · exact .inl ⟨s1, hs1, by simpa using h⟩
  · simp only [gt_iff_lt] at h
    cases h
    exact .inr ⟨rfl, hs1⟩

/-- The create returned 0 without a reservation. -/
theorem accounted_of_cache_refused (h : Accounted s) (hs : s' = s ∨ wbcMakeInodeDecomplete s dir = some s') :
    Accounted s' := by
  rcases hs with rfl | hd
  · exact h
  · exact wbcMakeInodeDecomplete_accounted h hd

/-- What `wbc_new_node` has built when it tries its last allocation: the new
inode, flagged, at the end of the table, its dirent accounted, on the LRU and
instantiated. Only the flag of the new inode counts. -/
theorem reservedCount_built (d : WbcInode) :
    reservedCount ((wbcReservedInodeLruAdd (wbcDirentAccountInc
        { s with inodes := s.inodes ++ [some (wbcGetInode d dir nameLen opc)] } dir nameLen)
          s.inodes.length).modifyInode s.inodes.length fun i => { i with hasAlias := true, pinned := true }) =
      reservedCount s + 1 := by
  rw [reservedCount_modifyInode_of_keep _ _ (fun i => { i with hasAlias := true, pinned := true })
      fun _ => rfl, reservedCount_wbcReservedInodeLruAdd,
    reservedCount_wbcDirentAccountInc, reservedCount_append]
  rfl

theorem wbcsConf_built (d : WbcInode) :
    ((wbcReservedInodeLruAdd (wbcDirentAccountInc
        { s with inodes := s.inodes ++ [some (wbcGetInode d dir nameLen opc)] } dir nameLen)
          s.inodes.length).modifyInode s.inodes.length fun i => { i with hasAlias := true, pinned := true }).wbcsConf =
      s.wbcsConf := by
  rw [modifyInode_wbcsConf, wbcReservedInodeLruAdd_wbcsConf]
  rfl

/-- A `wbc_new_node` whose allocations all succeed, on a reservation taken
for it, flags exactly one inode more. -/
theorem wbcNewNode_ok_accounted (hb : Balanced s.wbcsConf (reservedCount s + 1))
    (h : wbcNewNode s dir nameLen opc .ok = some (rc, s')) : Accounted s' := by
  unfold wbcNewNode at h
  obtain ⟨d, -, h⟩ := Option.bind_eq_some_iff.mp h
  dsimp only at h
  split at h
  · simp at h
  · simp only [reduceCtorEq, and_false, if_false] at h
    cases h
    unfold Accounted
    rw [reservedCount_built, wbcsConf_built]
    exact hb

/-- A create whose allocations all succeed keeps the accounting. -/
theorem memfsCreate_accounted (h : Accounted s) (hc : memfsCreate s opc dir nameLen .ok = some (rc, s')) :
    Accounted s' := by
  rcases memfsCreate_eq_some hc with ⟨s1, hs1, hn⟩ | ⟨-, hs⟩
  · obtain ⟨rfl, hfree⟩ := wbcReserveInode_eq_some hs1
    exact wbcNewNode_ok_accounted (h.take hfree) hn
  · exact accounted_of_cache_refused h hs

end Create

/-! ## The limit -/

section Limit

variable {s s' : WbcSuper}

/-- `wbc_super_conf_update` moves the free count with the limit. That keeps
the accounting, unless a limit is set where there was none while inodes are
flagged. -/
theorem wbcSuperConfUpdate_accounted {inodesLimit : Option UInt64} {pagesRefused : Bool} (h : Accounted s)
    (hadm : ∀ m, inodesLimit = some m → s.wbcsConf.wbccMaxInodes = 0 → m ≠ 0 → reservedCount s = 0) :
    Accounted (wbcSuperConfUpdate s inodesLimit pagesRefused).2 := by
  unfold wbcSuperConfUpdate
  cases inodesLimit with
  | none =>
    dsimp only
    split <;> exact h
  | some m =>
    dsimp only
    split
    · exact h
    · split
      · exact h
      · rename_i hle _
        have hb := balanced_iff.mp h
        -- the check on the new limit: what is in use still fits under it
        have hfits : s.wbcsConf.wbccMaxInodes.toNat - s.wbcsConf.wbccFreeInodes.toNat ≤ m.toNat := by
          rw [gt_iff_lt, UInt64.lt_iff_toNat_lt,
            UInt64.toNat_sub_of_le _ _ (UInt64.le_iff_toNat_le.mpr hb.1)] at hle
          omega
        show Balanced ⟨m, _⟩ (reservedCount s)
        rw [balanced_iff]
        dsimp only
        rw [CArith.toNat_add_sub_of_le hb.1 hfits]
        refine ⟨by omega, fun hm0 => ?_⟩
        by_cases hmax : s.wbcsConf.wbccMaxInodes.toNat = 0
        · -- a limit set where there was none: the free count starts at the limit
          have h0 := hadm m rfl (UInt64.toNat_inj.mp (by simpa using hmax))
            (fun h => hm0 (by simp [h]))
          omega
        · have := hb.2 hmax
          omega

theorem wbcSuperDisableCache_accounted (hd : wbcSuperDisableCache s = some s') : Accounted s' := by
  unfold wbcSuperDisableCache at hd
  split at hd
  · cases hd
    exact balanced_zero _
  · cases hd

end Limit

/-! ## Every step -/

section Step

variable {s s' : WbcSuper} {rc : Int}

/-- Eviction: after `wbc_free_inode` the inode is not flagged, so dropping
it from core changes no count. -/
theorem wbcStep_evict_accounted {ino : Nat} (h : Accounted s) (hs : wbcStep s (.evict ino) = some (rc, s')) :
    Accounted s' := by
  simp only [wbcStep] at hs
  split at hs
  · split at hs
    · cases hs
      exact h
    · obtain ⟨s1, hs1, hs⟩ := Option.map_eq_some_iff.mp hs
      cases hs
      have hn := reservedCount_set_none s1 ino
      rw [reservedOf_wbcFreeInode hs1] at hn
      exact (wbcFreeInode_accounted h hs1).of_eq rfl (by simpa using hn)
  · cases hs
    exact h

/-- The operations the accounting survives: creates whose allocations all
succeed, and limits set only while no inode is flagged or on top of a
limit. -/
def Admitted (s : WbcSuper) : WbcOp → Prop
  | .create _ _ _ outcome => outcome = .ok
  | .confUpdate inodesLimit _ =>
    ∀ m, inodesLimit = some m → s.wbcsConf.wbccMaxInodes = 0 → m ≠ 0 → reservedCount s = 0
  | _ => True

/-- The step lemma: every admitted operation keeps the accounting. -/
theorem wbcStep_accounted {op : WbcOp} (hadm : Admitted s op) (h : Accounted s)
    (hs : wbcStep s op = some (rc, s')) : Accounted s' := by
  cases op with
  | create opc dir nameLen outcome =>
    cases hadm
    exact memfsCreate_accounted h hs
  | remove dir ino =>
    obtain ⟨s1, hs1, hs⟩ := Option.map_eq_some_iff.mp hs
    cases hs
    exact memfsRemove_accounted h hs1
  | unreserveDput ino =>
    cases hs
    exact wbcInodeUnreserveDput_accounted h
  | reclaim =>
    obtain ⟨s1, hs1, hs⟩ := Option.map_eq_some_iff.mp hs
    cases hs
    exact wbcReclaimInodes_accounted h hs1
  | deroot ino =>
    obtain ⟨s1, hs1, hs⟩ := Option.map_eq_some_iff.mp hs
    cases hs
    exact wbcMarkInodeDeroot_accounted h hs1
  | evict ino => exact wbcStep_evict_accounted h hs
  | confUpdate inodesLimit pagesRefused =>
    have he : wbcSuperConfUpdate s inodesLimit pagesRefused = (rc, s') := Option.some.inj hs
    rw [show s' = (wbcSuperConfUpdate s inodesLimit pagesRefused).2 by rw [he]]
    exact wbcSuperConfUpdate_accounted h hadm
  | disable =>
    obtain ⟨s1, hs1, hs⟩ := Option.map_eq_some_iff.mp hs
    cases hs
    exact wbcSuperDisableCache_accounted hs1

/-- The run lemma: a run of admitted operations from an accounted super
block ends accounted. -/
theorem wbc_run_accounted {ops : List WbcOp} {rcs : List Int}
    (hadm : StepRun.AllowedRun wbcStep Admitted s ops) (h : Accounted s)
    (hrun : StepRun.run wbcStep s ops = some (rcs, s')) : Accounted s' :=
  StepRun.run_inv wbcStep Admitted Accounted (fun _ _ _ _ ha hi hs => wbcStep_accounted ha hi hs)
    ops s rcs s' hadm h hrun

end Step

/-! ## A cached root -/

/-- The root of a cached tree as the MDT sent it: protected, complete, in
lock-keep mode, with a 4096-byte directory. -/
def rootDir : WbcInode :=
  { flProtected := true, flComplete := true, flInodeReserved := false, flRoot := true, lockDrop := false,
    parent := 0, hasAlias := true, pinned := true, iSize := 4096, wbcdDirentNum := 0, dNameLen := 4 }

/-- A super block with no limit whose only in-core inode is that root. -/
def rootCached : WbcSuper := ⟨⟨0, 0⟩, [], [some rootDir]⟩

/-- Under a limit of two inodes, a directory created and evicted again. -/
theorem wbc_run_accounted_mkdir_evict :
    Accounted rootCached ∧
      StepRun.AllowedRun wbcStep Admitted rootCached [.confUpdate (some 2) false, .create .mkdir 0 5 .ok, .evict 1] ∧
      ∃ rcs s', StepRun.run wbcStep rootCached [.confUpdate (some 2) false, .create .mkdir 0 5 .ok, .evict 1] =
        some (rcs, s') ∧ Accounted s' := by
  have hadm : StepRun.AllowedRun wbcStep Admitted rootCached
      [.confUpdate (some 2) false, .create .mkdir 0 5 .ok, .evict 1] :=
    StepRun.allowedRun_cons_of_step wbcStep Admitted (by intro _ _ _ _; rfl) rfl <|
      StepRun.allowedRun_cons_of_step wbcStep Admitted rfl rfl <|
      StepRun.allowedRun_cons_of_step wbcStep Admitted trivial rfl trivial
  obtain ⟨⟨rcs, s'⟩, hrun⟩ : ∃ r, StepRun.run wbcStep rootCached
      [.confUpdate (some 2) false, .create .mkdir 0 5 .ok, .evict 1] = some r := ⟨_, rfl⟩
  exact ⟨balanced_zero _, hadm, rcs, s', hrun, wbc_run_accounted hadm (balanced_zero _) hrun⟩

/-! ## A reservation given back twice -/

/-- A limit of one inode, a `mkdir` in the root whose `wbcfs_d_init` fails,
and the eviction of the inode it leaves in core: the one reservation is
given back twice, so with no inode reserved two are free under a limit of
one, and `wbc_super_disable_cache` trips its assertion. -/
theorem wbc_reservation_released_twice :
    Accounted rootCached ∧ reservedCount rootCached = 0 ∧
      ∃ s, StepRun.run wbcStep rootCached
          [.confUpdate (some 1) false, .create .mkdir 0 5 .dInitFails, .evict 1] = some ([0, -enomem, 0], s) ∧
        s.wbcsConf = ⟨1, 2⟩ ∧ reservedCount s = 0 ∧ wbcSuperDisableCache s = none := by
  -- the dirent accounting of the failed `mkdir` is undone although it was never done
  let root' : WbcInode := { rootDir with iSize := 4064, wbcdDirentNum := 4294967295 }
  refine ⟨balanced_zero _, rfl, ⟨⟨1, 2⟩, [], [some root', none]⟩, ?_, rfl, rfl, rfl⟩
  rfl

end Lustre.Wbc
