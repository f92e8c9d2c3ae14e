import Mathlib
import Lustre.Wbc.Rmfid

/-! # What `wbc_do_rmfid` sends

While a directory's counter is the length of its queue, and the limit is
positive, `wbc_do_rmfid` sends every queued FID once, in order, in arrays of
at most the limit, and stays inside the arrays it allocated
(`wbc_do_rmfid_sends`, from the loop invariant `RmfidInv`). Queuing a removal
does not keep the counter of a removed directory whose queue it takes. The
limit 0, which the parser accepts, makes it write past its arrays; an empty
queue returns an `rc` never assigned; and a failed `md_rmfid` leaves the
rest of the queue allocated and on no list.
-/

namespace Lustre.Wbc

/-! ## The counter -/

/-- A queue whose counter is its length, as a 32-bit count. -/
def WbcRemoved.Counted (w : WbcRemoved) : Prop := w.wbciRemovedCount = UInt32.ofNat w.wbciRemovedList.length

@[simp] theorem setRemoved_removed_self (st : RemovedState) (dir : Nat) (w : WbcRemoved) :
    (st.setRemoved dir w).removed dir = w := Function.update_self ..

@[simp] theorem setRemoved_removed_ne {st : RemovedState} {dir d : Nat} (w : WbcRemoved) (h : d ≠ dir) :
    (st.setRemoved dir w).removed d = st.removed d := Function.update_of_ne h ..

/-! ## Every FID sent once, when the counter is right -/

section Loop

variable {o : RmfidOutcomes} {max nr count : UInt32}

/-- What the loop of `wbc_do_rmfid` keeps while the counter it read is the
length of the list it took: the array being filled is not full and holds
only items taken, and what is left is what the counter has not reached. -/
structure RmfidInv (max nr count : UInt32) (l : List Nat) (acc : RmfidAcc) : Prop where
  max_pos : 0 < max.toNat
  nr_eq : nr.toNat = min max.toNat count.toNat
  fa_lt : acc.fa.length < max.toNat
  fa_le : acc.fa.length ≤ acc.total.toNat
  total_add : acc.total.toNat + l.length = count.toNat

theorem toNat_total_succ {total count : UInt32} {n : Nat} (h : total.toNat + (n + 1) = count.toNat) :
    (total + 1).toNat = total.toNat + 1 := by
  have := count.toNat_lt
  rw [UInt32.toNat_add, UInt32.toNat_one, Nat.mod_eq_of_lt (by omega)]

/-- With every `md_rmfid` succeeding, the loop sends each item once, in
order, in full arrays, and leaves the rest in the array being filled. -/
theorem rmfidLoop_sends (hok : ∀ n, o.mdRmfidRc n = 0) (l : List Nat) :
    ∀ {acc : RmfidAcc}, RmfidInv max nr count l acc →
      ∃ acc', rmfidLoop o max nr l acc = some (.done, acc') ∧
        acc'.sent.flatten ++ acc'.fa = acc.sent.flatten ++ acc.fa ++ l ∧
        (∀ b ∈ acc'.sent, b ∈ acc.sent ∨ b.length = max.toNat) ∧
        RmfidInv max nr count [] acc' ∧
        (acc'.sent = acc.sent ∧ acc'.rc = acc.rc ∨ acc.sent.length < acc'.sent.length ∧ acc'.rc = some 0) := by
  induction l with
  | nil =>
    intro acc h
    exact ⟨acc, rfl, by simp, fun b hb => Or.inl hb, h, Or.inl ⟨rfl, rfl⟩⟩
  | cons item rest ih =>
    intro acc h
    have htot := toNat_total_succ h.total_add
    -- the write to fa_fids[fa_nr] is inside the array of nr entries
    have hin : acc.fa.length < nr.toNat := by
      have := h.total_add
      have := h.fa_le
      have := h.fa_lt
      rw [h.nr_eq]
      simp only [List.length_cons] at *
      omega
    simp only [rmfidLoop, if_neg (Nat.not_le.mpr hin)]
    have hlen : (acc.fa ++ [item]).length = acc.fa.length + 1 := List.length_append ..
    by_cases hfull : (acc.fa ++ [item]).length = max.toNat
    · -- a full array goes to the MDT, inside the array of return codes
      rw [if_pos hfull]
      simp only [mdRmfid, if_neg (show ¬(acc.fa ++ [item]).length > nr.toNat by omega), hok, ne_eq,
        not_true_eq_false, if_false]
      obtain ⟨acc', hrun, hflat, hsent, hinv, hrc⟩ := @ih
        { fa := [], total := acc.total + 1, rc := some 0, sent := acc.sent ++ [acc.fa ++ [item]],
          heap := acc.heap.erase item }
        ⟨h.max_pos, h.nr_eq, h.max_pos, Nat.zero_le _, by
          have := h.total_add
          simp only [List.length_cons] at this
          dsimp only
          omega⟩
      refine ⟨acc', hrun, by simpa using hflat, fun b hb => ?_, hinv, Or.inr ?_⟩
      · rcases hsent b hb with hb | hb
        · rcases List.mem_append.mp hb with hb | hb
          · exact Or.inl hb
          · rw [List.mem_singleton.mp hb]
            exact Or.inr hfull
        · exact Or.inr hb
      · -- the array just sent is the first the caller has not seen
        rcases hrc with ⟨hs, hr⟩ | ⟨hs, hr⟩
        · rw [hs, List.length_append]
          exact ⟨by simp, hr⟩
        · rw [List.length_append] at hs
          exact ⟨by simp only [List.length_singleton] at hs; omega, hr⟩
    · rw [if_neg hfull]
      obtain ⟨acc', hrun, hflat, hsent, hinv, hrc⟩ := @ih
        { fa := acc.fa ++ [item], total := acc.total + 1, rc := acc.rc, sent := acc.sent,
          heap := acc.heap.erase item }
        ⟨h.max_pos, h.nr_eq, by have := h.fa_lt; dsimp only; omega, by have := h.fa_le; dsimp only; omega, by
          have := h.total_add
          simp only [List.length_cons] at this
          dsimp only
          omega⟩
      exact ⟨acc', hrun, by simpa using hflat, hsent, hinv, hrc⟩

end Loop

/-- With a positive limit, a counter equal to the queue's length, and every
allocation and `md_rmfid` succeeding, `wbc_do_rmfid` sends every queued FID
once, in order, in arrays of at most `max`, and frees the items it sent. It
returns 0, except for an empty queue, where `rc` is never assigned. -/
theorem wbc_do_rmfid_sends {st : RemovedState} {dir : Nat} {max : UInt32} {o : RmfidOutcomes}
    (hmax : 0 < max.toNat) (hc : (st.removed dir).Counted) (hlen : (st.removed dir).wbciRemovedList.length < 2 ^ 32)
    (hfa : o.faAllocOk = true) (hrcs : o.rcsAllocOk = true) (hok : ∀ n, o.mdRmfidRc n = 0) :
    ∃ rc sent st', wbcDoRmfid st dir max o = some (rc, sent, st') ∧
      sent.flatten = (st.removed dir).wbciRemovedList ∧ (∀ b ∈ sent, b.length ≤ max.toNat) ∧
      (rc = some 0 ↔ (st.removed dir).wbciRemovedList ≠ []) := by
  set l := (st.removed dir).wbciRemovedList with hl
  set count := (st.removed dir).wbciRemovedCount with hcount
  have hcountNat : count.toNat = l.length := by
    rw [hcount, hc]
    exact UInt32.toNat_ofNat_of_lt' hlen
  have hinv : RmfidInv max (min max count) count l
      { fa := [], total := 0, rc := none, sent := [], heap := (st.setRemoved dir ⟨[], 0⟩).heap } :=
    ⟨hmax, UInt32.toNat_min max count, hmax, Nat.zero_le _, by simp [hcountNat]⟩
  obtain ⟨acc, hrun, hflat, hsent, hinv', hrc⟩ := rmfidLoop_sends hok l hinv
  simp only [List.flatten_nil, List.nil_append] at hflat
  have htotal : acc.total = count := UInt32.toNat_inj.mp (by simpa using hinv'.total_add)
  unfold wbcDoRmfid
  simp only [hfa, hrcs, not_true_eq_false, if_false]
  rw [← hl, ← hcount, hrun]
  simp only [htotal, ne_eq, not_true_eq_false, if_false]
  by_cases hfa0 : acc.fa = []
  · -- nothing left in the array: the result of the last array sent, if any
    rw [if_neg (not_not.mpr hfa0)]
    rw [hfa0, List.append_nil] at hflat
    refine ⟨_, _, _, rfl, hflat, fun b hb => ?_, ?_⟩
    · rcases hsent b hb with hb | hb
      · cases hb
      · exact Nat.le_of_eq hb
    · rcases hrc with ⟨hs, hr⟩ | ⟨hs, hr⟩
      · rw [hs] at hflat
        rw [hr, ← hflat]
        simp
      · -- an array was sent, of max > 0 entries
        rw [hr]
        simp only [true_iff]
        intro hnil
        obtain ⟨b, hb⟩ := List.exists_mem_of_length_pos hs
        have hbl : b.length = max.toNat := (hsent b hb).resolve_left (by simp)
        rw [List.flatten_eq_nil_iff.mp (hflat.trans hnil) b hb, List.length_nil] at hbl
        omega
  · -- the last array, shorter than max, inside the arrays of nr entries
    rw [if_pos hfa0]
    have hle : ¬ acc.fa.length > (min max count).toNat := by
      have := hinv'.fa_le
      have := hinv'.fa_lt
      rw [hinv'.nr_eq, ← htotal]
      omega
    simp only [mdRmfid, if_neg hle, hok, Option.map_some]
    refine ⟨_, _, _, rfl, by simpa using hflat, fun b hb => ?_, ?_⟩
    · rcases List.mem_append.mp hb with hb | hb
      · rcases hsent b hb with hb | hb
        · cases hb
        · exact Nat.le_of_eq hb
      · rw [List.mem_singleton.mp hb]
        exact Nat.le_of_lt hinv'.fa_lt
    · simp only [true_iff]
      intro hnil
      rw [hnil] at hflat
      exact hfa0 (List.append_eq_nil_iff.mp hflat).2

/-! ## What goes wrong -/

/-- No removal queued anywhere. -/
def noRemoved : RemovedState := ⟨fun _ => ⟨[], 0⟩, []⟩

/-- The file 11 removed from the directory 10, then the directory 10 from
the directory 1, both under `delay`. -/
def nestedRemoved : RemovedState :=
  (wbcAddRemovedItem (wbcAddRemovedItem noRemoved 10 11 false true .delay).2 1 10 true true .delay).2

/-- The files 21, 22 and 23 removed from the directory 2. -/
def threeRemoved : RemovedState :=
  (wbcAddRemovedItem (wbcAddRemovedItem (wbcAddRemovedItem noRemoved 2 21 false true .delay).2 2 22 false true
    .delay).2 2 23 false true .delay).2

/-- Both allocations succeed and `md_rmfid` answers `rc` to the first call. -/
def rmfidFirst (rc : Int) : RmfidOutcomes := ⟨true, true, fun n => if n = 0 then rc else 0⟩

/-- The parser accepts a limit of 0, with which the first FID of a queue is
written past the arrays; a removed directory keeps a counter of 1 for its
emptied queue; an empty queue returns an unassigned `rc`; and when the first
of two arrays fails, the FIDs 21 and 22 are freed though the MDT did not
remove them, and 23 stays allocated on no queue. -/
theorem wbc_do_rmfid_unsafe :
    wbcParseValue 12 0 "max_rmfid_count".toList "0".toList = .ok (.maxRmfidCount 0) ∧
      nestedRemoved.removed 1 = ⟨[11, 10], 2⟩ ∧ nestedRemoved.removed 10 = ⟨[], 1⟩ ∧
      wbcDoRmfid nestedRemoved 1 0 (rmfidFirst 0) = none ∧
      (wbcDoRmfid noRemoved 1 4096 (rmfidFirst 0)).map (·.1) = some none ∧
      (wbcDoRmfid threeRemoved 2 2 (rmfidFirst (-5))).map (fun r => (r.1, r.2.1, r.2.2.heap, r.2.2.removed 2)) =
        some (some (-5), [[21, 22]], [23], ⟨[], 0⟩) := by
  decide

/-- When every call succeeds, the three FIDs go in two arrays. -/
theorem wbc_do_rmfid_sends_three :
    ∃ rc sent st', wbcDoRmfid threeRemoved 2 2 (rmfidFirst 0) = some (rc, sent, st') ∧
      sent.flatten = (threeRemoved.removed 2).wbciRemovedList ∧ (∀ b ∈ sent, b.length ≤ (2 : UInt32).toNat) ∧
      (rc = some 0 ↔ (threeRemoved.removed 2).wbciRemovedList ≠ []) :=
  wbc_do_rmfid_sends (by decide) rfl (by decide) rfl rfl (fun n => by simp [rmfidFirst])

end Lustre.Wbc
