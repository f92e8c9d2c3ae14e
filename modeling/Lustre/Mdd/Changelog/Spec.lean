import Mathlib
import Lustre.Mdd.Changelog

/-! # No changelog record is purged before every user has read it

`ChangelogInv` is what the changelog keeps when each call runs whole: the
records are in order and numbered up to `mc_index`, no user has read past
`mc_index`, and every record that some registered user has not read yet is
still in the changelog. Appends, clears and purges keep it
(`mddChangelogStep_inv`), so along every sequence of whole calls a record is
cancelled only once every user still registered has read it
(`changelog_run_keeps_unread`).

A clear with `endrec = 0` reads `mc_index` as its `start_rec` and, with no
other user, cancels up to `ULLONG_MAX`, which `mdd_changelog_llog_cancel`
cuts to the `mc_index` it reads itself. A record appended between the two
reads is cancelled although the user has read only up to `start_rec`
(`mdd_changelog_clear_cancels_unread`).
-/

namespace Lustre.Mdd

/-- What the changelog keeps between whole calls. -/
structure ChangelogInv (cl : MddChangelog) : Prop where
  sorted : cl.records.Pairwise (· < ·)
  le_index : ∀ r ∈ cl.records, r ≤ cl.mcIndex
  endrec_le : ∀ u ∈ cl.users, u.curEndrec ≤ cl.mcIndex
  kept : ∀ r, 0 < r → r ≤ cl.mcIndex → (∃ u ∈ cl.users, u.curEndrec < r) → r ∈ cl.records

/-! ## Records -/

section Records

variable {cl : MddChangelog}

/-- Cancelling up to `endrec` in an ordered changelog keeps every later
record. -/
theorem mem_llogChangelogCancel {records : List Nat} (hs : records.Pairwise (· < ·)) {r endrec : Nat}
    (hr : r ∈ records) (hlt : endrec < r) : r ∈ llogChangelogCancel records endrec := by
  induction records with
  | nil => cases hr
  | cons x rest ih =>
    rw [llogChangelogCancel, List.dropWhile_cons]
    rcases List.mem_cons.mp hr with rfl | hr
    · rw [if_neg (by simp only [decide_eq_true_eq]; omega)]
      exact List.mem_cons_self
    · split_ifs
      · exact ih (List.pairwise_cons.mp hs).2 hr
      · exact List.mem_cons_of_mem x hr

theorem llogChangelogCancel_sublist (records : List Nat) (endrec : Nat) :
    (llogChangelogCancel records endrec).Sublist records :=
  (List.dropWhile_suffix _).sublist

theorem ChangelogInv.store (h : ChangelogInv cl) : ChangelogInv (mddChangelogStore cl) := by
  refine ⟨?_, ?_, ?_, ?_⟩
  · -- the new record comes after every one there
    refine List.pairwise_append.mpr ⟨h.sorted, List.pairwise_singleton _ _, fun a ha b hb => ?_⟩
    rw [List.mem_singleton] at hb
    have := h.le_index a ha
    omega
  · intro r hr
    rcases List.mem_append.mp hr with hr | hr
    · have := h.le_index r hr
      dsimp only [mddChangelogStore]
      omega
    · rw [List.mem_singleton] at hr
      exact Nat.le_of_eq hr
  · intro u hu
    have := h.endrec_le u hu
    dsimp only [mddChangelogStore]
    omega
  · intro r hr0 hr hu
    dsimp only [mddChangelogStore] at hr ⊢
    rcases Nat.lt_or_ge r (cl.mcIndex + 1) with hlt | hge
    · exact List.mem_append_left _ (h.kept r hr0 (by omega) hu)
    · exact List.mem_append_right _ (List.mem_singleton.mpr (by omega))

theorem ChangelogInv.append (h : ChangelogInv cl) : ChangelogInv (mddChangelogAppend cl) := by
  unfold mddChangelogAppend
  split_ifs
  · exact h.store
  · exact h

theorem ChangelogInv.writeHeader (h : ChangelogInv cl) : ChangelogInv (mddChangelogWriteHeader cl) := by
  unfold mddChangelogWriteHeader
  split_ifs
  · exact h
  · exact h.store

theorem ChangelogInv.off (h : ChangelogInv cl) : ChangelogInv (mddChangelogOff cl) := by
  unfold mddChangelogOff
  split_ifs
  · have hw := h.writeHeader
    exact ⟨hw.sorted, hw.le_index, hw.endrec_le, hw.kept⟩
  · exact h

@[simp] theorem mddChangelogWriteHeader_users : (mddChangelogWriteHeader cl).users = cl.users := by
  unfold mddChangelogWriteHeader mddChangelogStore
  split_ifs <;> rfl

/-- Cancelling up to a bound that no user is behind keeps the invariant. -/
theorem ChangelogInv.cancel_records (h : ChangelogInv cl) {e : Nat} (he : ∀ u ∈ cl.users, e ≤ u.curEndrec) :
    ChangelogInv { cl with records := llogChangelogCancel cl.records e } := by
  have hsub := llogChangelogCancel_sublist cl.records e
  refine ⟨h.sorted.sublist hsub, fun r hr => h.le_index r (hsub.subset hr), h.endrec_le, ?_⟩
  intro r hr0 hr ⟨u, hu, hlt⟩
  exact mem_llogChangelogCancel h.sorted (h.kept r hr0 hr ⟨u, hu, hlt⟩) (by have := he u hu; omega)

/-- `mdd_changelog_llog_cancel(mdd, endrec)` keeps the invariant when no user
is behind `endrec`, nor behind `mc_index` where that is lower. -/
theorem ChangelogInv.llogCancel (h : ChangelogInv cl) {endrec : Nat}
    (hsafe : ∀ u ∈ cl.users, endrec ≠ 0 ∧ min endrec cl.mcIndex ≤ u.curEndrec) :
    ChangelogInv (mddChangelogLlogCancel cl endrec) := by
  unfold mddChangelogLlogCancel
  dsimp only
  -- the bound the records are cancelled up to
  generalize he : (if (if endrec > cl.mcIndex then cl.mcIndex else endrec) = 0 then cl.mcIndex
    else if endrec > cl.mcIndex then cl.mcIndex else endrec) = e
  have hbound : ∀ u ∈ cl.users, e ≤ u.curEndrec := by
    intro u hu
    obtain ⟨hne, hle⟩ := hsafe u hu
    rw [← he]
    split_ifs <;> omega
  split_ifs
  · exact h.writeHeader.cancel_records (by rw [mddChangelogWriteHeader_users]; exact hbound)
  · exact h.cancel_records hbound

end Records

/-! ## Users -/

section Users

variable {cl : MddChangelog}

/-- An element of the right list of `Forall₂` is related to one of the
left. -/
theorem exists_of_forall₂ {α β : Type} {R : α → β → Prop} :
    ∀ {l₁ : List α} {l₂ : List β}, List.Forall₂ R l₁ l₂ → ∀ {b : β}, b ∈ l₂ → ∃ a ∈ l₁, R a b
  | _, _, .nil, _, hb => by cases hb
  | a :: _, _, .cons hr hrest, _, hb => by
    rcases List.mem_cons.mp hb with rfl | hb
    · exact ⟨a, List.mem_cons_self, hr⟩
    · obtain ⟨a', ha', hr'⟩ := exists_of_forall₂ hrest hb
      exact ⟨a', List.mem_cons_of_mem a ha', hr'⟩

/-- Moving users forward, to `e` at most where they move, with `e` not past
`mc_index`, keeps the invariant. -/
theorem ChangelogInv.users_forward (h : ChangelogInv cl) {users : List ChangelogUserRec} {e : Nat}
    (hall : List.Forall₂ (fun u u' => u.curEndrec ≤ u'.curEndrec ∧ u'.curEndrec ≤ max u.curEndrec e) cl.users users)
    (he : e ≤ cl.mcIndex) : ChangelogInv { cl with users := users } := by
  refine ⟨h.sorted, h.le_index, fun u' hu' => ?_, fun r hr0 hr ⟨u', hu', hlt⟩ => ?_⟩
  · obtain ⟨u, hu, -, hle⟩ := exists_of_forall₂ hall hu'
    have := h.endrec_le u hu
    dsimp only
    omega
  · -- the user was at least as far behind before
    obtain ⟨u, hu, hle, -⟩ := exists_of_forall₂ hall hu'
    exact h.kept r hr0 hr ⟨u, hu, by omega⟩

/-- Unregistering users keeps the invariant. -/
theorem ChangelogInv.users_sublist (h : ChangelogInv cl) {users : List ChangelogUserRec}
    (hs : users.Sublist cl.users) : ChangelogInv { cl with users := users } :=
  ⟨h.sorted, h.le_index, fun u hu => h.endrec_le u (hs.subset hu),
    fun r hr0 hr ⟨u, hu, hlt⟩ => h.kept r hr0 hr ⟨u, hs.subset hu, hlt⟩⟩

end Users

/-! ## Clear -/

section Clear

variable {cl : MddChangelog}

/-- What the walk of `mdd_changelog_clear_cb` over the user records does: it
succeeds or fails with `-EINVAL`; it moves each user forward, to
`mcuc_endrec` at most, keeping its id; and on success every other user is at
least at `mcuc_minrec`, and every user of the id is at `mcuc_endrec`. -/
structure ClearWalk (mcuc : MddChangelogUserClear) (users : List ChangelogUserRec)
    (r : Int × MddChangelogUserClear × List ChangelogUserRec) : Prop where
  rc_cases : r.1 = 0 ∨ r.1 = -einval
  minrec_le : r.2.1.mcucMinrec ≤ mcuc.mcucMinrec
  forward : List.Forall₂ (fun u u' => u'.curId = u.curId ∧ u.curEndrec ≤ u'.curEndrec ∧
    u'.curEndrec ≤ max u.curEndrec mcuc.mcucEndrec) users r.2.2
  others : r.1 = 0 → ∀ u ∈ r.2.2, u.curId ≠ mcuc.mcucId → r.2.1.mcucMinrec ≤ u.curEndrec
  same : r.1 = 0 → ∀ u ∈ r.2.2, u.curId = mcuc.mcucId → u.curEndrec = mcuc.mcucEndrec

theorem mddChangelogClearCb_spec : ∀ (users : List ChangelogUserRec) (mcuc : MddChangelogUserClear),
    ClearWalk mcuc users (mddChangelogClearCb mcuc users)
  | [], mcuc => ⟨Or.inl rfl, Nat.le_refl _, .nil, fun _ u hu => (by cases hu), fun _ u hu => (by cases hu)⟩
  | rec :: rest, mcuc => by
    unfold mddChangelogClearCb
    by_cases hid : rec.curId ≠ mcuc.mcucId
    · -- another user: it lowers `mcuc_minrec` and is left alone
      rw [if_pos hid]
      have hw := mddChangelogClearCb_spec rest { mcuc with mcucMinrec := min mcuc.mcucMinrec rec.curEndrec }
      refine ⟨hw.rc_cases, Nat.le_trans hw.minrec_le (Nat.min_le_left _ _),
        .cons ⟨rfl, Nat.le_refl _, Nat.le_max_left _ _⟩ hw.forward, fun hrc u hu hne => ?_, fun hrc u hu heq => ?_⟩
      · rcases List.mem_cons.mp hu with rfl | hu
        · exact Nat.le_trans hw.minrec_le (Nat.min_le_right _ _)
        · exact hw.others hrc u hu hne
      · rcases List.mem_cons.mp hu with rfl | hu
        · exact absurd heq hid
        · exact hw.same hrc u hu heq
    · rw [if_neg hid]
      by_cases hback : rec.curEndrec > mcuc.mcucEndrec
      · -- the user has read past the request: -EINVAL, and the walk stops
        rw [if_pos hback]
        have hne : (-einval : Int) ≠ 0 := by decide
        exact ⟨Or.inr rfl, Nat.le_refl _,
          List.forall₂_same.mpr fun u _ => ⟨rfl, Nat.le_refl _, Nat.le_max_left _ _⟩,
          fun hrc => absurd hrc hne, fun hrc => absurd hrc hne⟩
      · rw [if_neg hback]
        have hw := mddChangelogClearCb_spec rest { mcuc with mcucFlush := true }
        refine ⟨hw.rc_cases, hw.minrec_le, .cons ⟨rfl, by dsimp only; omega, Nat.le_max_right _ _⟩ hw.forward,
          fun hrc u hu hne => ?_, fun hrc u hu heq => ?_⟩
        · rcases List.mem_cons.mp hu with rfl | hu
          · exact absurd (not_not.mp hid) hne
          · exact hw.others hrc u hu hne
        · rcases List.mem_cons.mp hu with rfl | hu
          · rfl
          · exact hw.same hrc u hu heq

/-- A clear that has just read `mc_index`: its `mcuc_endrec` is not past
`mc_index`, and neither `mcuc_minrec` nor `mc_index` is past it both. -/
def ClearReady (cl : MddChangelog) (mcuc : MddChangelogUserClear) : Prop :=
  mcuc.mcucEndrec ≤ cl.mcIndex ∧ min mcuc.mcucMinrec cl.mcIndex ≤ mcuc.mcucEndrec

theorem mddChangelogClearStart_ready {id endrec : Nat} {mcuc : MddChangelogUserClear}
    (hs : mddChangelogClearStart cl id endrec = .ok mcuc) : ClearReady cl mcuc := by
  unfold mddChangelogClearStart at hs
  dsimp only at hs
  split_ifs at hs with hlt hz
  · cases hs
    exact ⟨Nat.le_refl _, Nat.min_le_right _ _⟩
  · cases hs
    exact ⟨by dsimp only; omega, Nat.min_le_left _ _⟩

/-- Finishing a clear that is ready keeps the invariant. -/
theorem ChangelogInv.clearFinish (h : ChangelogInv cl) {mcuc : MddChangelogUserClear} (hready : ClearReady cl mcuc) :
    ChangelogInv (mddChangelogClearFinish cl mcuc).2 := by
  unfold mddChangelogClearFinish
  have hw := mddChangelogClearCb_spec cl.users mcuc
  generalize mddChangelogClearCb mcuc cl.users = res at hw
  obtain ⟨rc, mcuc', users⟩ := res
  have hfwd : ChangelogInv { cl with users := users } :=
    h.users_forward (hw.forward.imp fun _ _ hr => ⟨hr.2.1, hr.2.2⟩) hready.1
  dsimp only
  split_ifs with hrc hflush hmin0
  · exact hfwd
  · -- the records up to the lowest user are cancelled
    have hrc0 : rc = 0 := hw.rc_cases.resolve_right hrc
    refine hfwd.llogCancel fun u hu => ⟨hmin0, ?_⟩
    by_cases hid : u.curId = mcuc.mcucId
    · rw [hw.same hrc0 u hu hid]
      have hm := hw.minrec_le
      have hr := hready.2
      dsimp only at hm hr ⊢
      omega
    · exact Nat.le_trans (Nat.min_le_left _ _) (hw.others hrc0 u hu hid)
  · exact hfwd
  · exact hfwd

theorem ChangelogInv.clear (h : ChangelogInv cl) (id endrec : Nat) : ChangelogInv (mddChangelogClear cl id endrec).2 := by
  unfold mddChangelogClear
  cases hs : mddChangelogClearStart cl id endrec with
  | error rc => exact h
  | ok mcuc => exact h.clearFinish (mddChangelogClearStart_ready hs)

end Clear

/-! ## Purge -/

section Purge

variable {cl : MddChangelog}

@[simp] theorem mddChangelogOff_users : (mddChangelogOff cl).users = cl.users := by
  unfold mddChangelogOff
  split_ifs
  · exact mddChangelogWriteHeader_users
  · rfl

/-- What the walk of `mdd_changelog_user_purge_cb` does: it drops user
records, counts the others it keeps, and leaves `mcup_minrec` no higher than
it was, at most each other user's `cur_endrec`, and as it was when no other
user is left. -/
structure PurgeWalk (mcup : MddChangelogUserPurge) (users : List ChangelogUserRec)
    (r : MddChangelogUserPurge × List ChangelogUserRec) : Prop where
  sublist : r.2.Sublist users
  count : r.1.mcupUsercount = mcup.mcupUsercount + r.2.length
  minrec_mono : r.1.mcupMinrec ≤ mcup.mcupMinrec
  minrec_le : ∀ u ∈ r.2, r.1.mcupMinrec ≤ u.curEndrec
  minrec_none : r.2 = [] → r.1.mcupMinrec = mcup.mcupMinrec

theorem mddChangelogUserPurgeCb_spec : ∀ (users : List ChangelogUserRec) (mcup : MddChangelogUserPurge),
    PurgeWalk mcup users (mddChangelogUserPurgeCb mcup users)
  | [], mcup => ⟨List.Sublist.slnil, rfl, Nat.le_refl _, fun _ hu => (by cases hu), fun _ => rfl⟩
  | rec :: rest, mcup => by
    unfold mddChangelogUserPurgeCb
    dsimp only
    by_cases hid : rec.curId ≠ mcup.mcupId
    · -- another user: counted, kept, and it lowers `mcup_minrec`
      rw [if_pos hid]
      have hw := mddChangelogUserPurgeCb_spec rest
        { mcup with mcupUsercount := mcup.mcupUsercount + 1, mcupMinrec := min mcup.mcupMinrec rec.curEndrec }
      refine ⟨hw.sublist.cons_cons rec, ?_, Nat.le_trans hw.minrec_mono (Nat.min_le_left _ _), fun u hu => ?_,
        fun hnil => (by cases hnil)⟩
      · rw [hw.count, List.length_cons]
        dsimp only
        omega
      · rcases List.mem_cons.mp hu with rfl | hu
        · exact Nat.le_trans hw.minrec_mono (Nat.min_le_right _ _)
        · exact hw.minrec_le u hu
    · -- the user itself: unregistered
      rw [if_neg hid]
      have hw := mddChangelogUserPurgeCb_spec rest
        { mcup with mcupFound := true, mcupUsercount := mcup.mcupUsercount + 1 - 1 }
      refine ⟨hw.sublist.cons rec, ?_, hw.minrec_mono, hw.minrec_le, hw.minrec_none⟩
      rw [hw.count]
      dsimp only
      omega

/-- `mdd_changelog_user_purge` keeps the invariant. -/
theorem ChangelogInv.purge (h : ChangelogInv cl) (id : Nat) : ChangelogInv (mddChangelogUserPurge cl id).2 := by
  unfold mddChangelogUserPurge
  have hw := mddChangelogUserPurgeCb_spec cl.users ⟨id, false, 0, ullongMax⟩
  generalize mddChangelogUserPurgeCb ⟨id, false, 0, ullongMax⟩ cl.users = res at hw
  obtain ⟨mcup, users⟩ := res
  dsimp only at hw ⊢
  have hsub := h.users_sublist hw.sublist
  -- turning changelogs off keeps the invariant and the users
  generalize hcl' : (if mcup.mcupUsercount = 0 ∧ users = [] then mddChangelogOff { cl with users := users }
    else { cl with users := users }) = cl'
  have hinv' : ChangelogInv cl' ∧ cl'.users = users := by
    rw [← hcl']
    split_ifs
    · exact ⟨hsub.off, mddChangelogOff_users⟩
    · exact ⟨hsub, rfl⟩
  split_ifs with hfound hcancel
  · refine hinv'.1.llogCancel fun u hu => ?_
    rw [hinv'.2] at hu
    -- some other user is left, so the walk lowered `mcup_minrec` to it, and it is not 0
    have hne : mcup.mcupMinrec ≠ 0 := by
      rcases hcancel with h0 | h0
      · exact h0
      · have hlen := hw.count
        dsimp only at hlen
        have := List.length_pos_of_mem hu
        omega
    exact ⟨hne, Nat.le_trans (Nat.min_le_left _ _) (hw.minrec_le u hu)⟩
  · exact hinv'.1
  · exact hinv'.1

end Purge

/-! ## Runs -/

/-- Every whole call keeps the invariant. -/
theorem mddChangelogStep_inv {cl : MddChangelog} (h : ChangelogInv cl) :
    ∀ op, ∃ rc cl', mddChangelogStep cl op = some (rc, cl') ∧ ChangelogInv cl'
  | .append => ⟨_, _, rfl, h.append⟩
  | .clear id endrec => ⟨_, _, rfl, h.clear id endrec⟩
  | .purge id => ⟨_, _, rfl, h.purge id⟩

/-- Along every sequence of appends, clears and purges, each run whole, from
a changelog with the invariant: every record not in the changelog any more,
up to `mc_index`, has been read by every user still registered. -/
theorem changelog_run_keeps_unread {cl : MddChangelog} (h : ChangelogInv cl) (ops : List ChangelogOp) :
    ∃ rs cl', StepRun.run mddChangelogStep cl ops = some (rs, cl') ∧
      ∀ r, 0 < r → r ≤ cl'.mcIndex → r ∉ cl'.records → ∀ u ∈ cl'.users, r ≤ u.curEndrec := by
  obtain ⟨rs, cl', hrun, -, hinv⟩ := StepRun.run_total mddChangelogStep (fun _ _ => True) ChangelogInv
    (fun _ => True) (fun c op _ hc => by
      obtain ⟨rc, c', hs, hc'⟩ := mddChangelogStep_inv hc op
      exact ⟨rc, c', hs, trivial, hc'⟩)
    ops cl (StepRun.allowedRun_of_forall _ (fun _ => True) ops cl fun _ _ => trivial) h
  refine ⟨rs, cl', hrun, fun r hr0 hr hnot u hu => ?_⟩
  by_contra hlt
  exact hnot (hinv.kept r hr0 hr ⟨u, hu, by omega⟩)

/-- Two users on a new changelog: two records, a clear by one of them, and
the other purged. -/
theorem changelog_run_keeps_unread_two_users :
    ChangelogInv ⟨0, true, false, [], [⟨1, 0⟩, ⟨2, 0⟩]⟩ ∧
      ∃ rs cl', StepRun.run mddChangelogStep ⟨0, true, false, [], [⟨1, 0⟩, ⟨2, 0⟩]⟩
          [.append, .append, .clear 1 2, .purge 2] = some (rs, cl') ∧
        ∀ r, 0 < r → r ≤ cl'.mcIndex → r ∉ cl'.records → ∀ u ∈ cl'.users, r ≤ u.curEndrec := by
  have hinv : ChangelogInv ⟨0, true, false, [], [⟨1, 0⟩, ⟨2, 0⟩]⟩ :=
    { sorted := List.Pairwise.nil
      le_index := fun _ h => by cases h
      endrec_le := fun u hu => by
        simp only [List.mem_cons, List.not_mem_nil, or_false] at hu
        rcases hu with rfl | rfl <;> exact Nat.le_refl 0
      kept := fun r hr0 hr _ => by dsimp only at hr; omega }
  exact ⟨hinv, changelog_run_keeps_unread hinv _⟩

/-- A user that has read everything clears with `endrec = 0`; a record is
appended after the clear has read `mc_index` and before it cancels. The
cancel, cut to the `mc_index` it reads itself, takes the new record 1 away,
although the only user has read up to 0. -/
theorem mdd_changelog_clear_cancels_unread :
    ChangelogInv ⟨0, true, false, [], [⟨1, 0⟩]⟩ ∧
      ∃ rs s', StepRun.run mddChangelogSysStep ⟨⟨0, true, false, [], [⟨1, 0⟩]⟩, []⟩
          [.clearStart 1 0, .append, .clearFinish 0] = some (rs, s') ∧
        1 ≤ s'.cl.mcIndex ∧ 1 ∉ s'.cl.records ∧ s'.cl.users = [⟨1, 0⟩] := by
  refine ⟨⟨List.Pairwise.nil, fun _ h => (by cases h), fun u hu => ?_, fun r hr0 hr _ => (by dsimp only at hr; omega)⟩, _, _, rfl, ?_⟩
  · obtain rfl := List.mem_singleton.1 hu
    exact Nat.le_refl 0
  · decide

end Lustre.Mdd
