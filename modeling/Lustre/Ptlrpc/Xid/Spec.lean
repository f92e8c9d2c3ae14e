import Mathlib
import Lustre.Ptlrpc.Xid

/-! # The unreplied list stays in order above the known replied xid

`UnrepliedInv` is the invariant of an import: `imp_unreplied_list` is in
strictly increasing order of xid and every request on it is above
`imp_known_replied_xid`, with what the sections under `imp_lock` need to keep
that: every xid handed out is at most the counter and belongs to one request,
and the requests on the lists have xids. `XidsWF` is all of it but the bound
of the known replied xid, which a request re-added during replay breaks until
`imp_known_replied_xid` is set again under the list.

Each section has its lemma, and `ptlrpcXidStep_spec` puts them together: an
operation the callers may make, from an import with the invariant, returns —
no LASSERT and no LBUG fires — keeps the invariant, and packs as `last_xid`
an xid below every request still on the list. `ptlrpc_unreplied_list_ordered`
is the run.
-/

namespace Lustre.Ptlrpc

open StepRun

/-- The xids between the sections under `imp_lock`, but for the bound of the
known replied xid. -/
structure XidsWF (imp : ObdImport) : Prop where
  sorted : imp.impUnrepliedList.Pairwise fun a b => imp.rqXid a < imp.rqXid b
  listed_sent : ∀ req ∈ imp.impUnrepliedList, imp.rqXid req ≠ 0
  replay_sent : ∀ req, req ∈ imp.impCommittedList ∨ req ∈ imp.impReplayList → imp.rqXid req ≠ 0
  xid_le : ∀ req, imp.rqXid req ≤ imp.ptlrpcLastXid
  xid_inj : ∀ req req', imp.rqXid req ≠ 0 → imp.rqXid req = imp.rqXid req' → req = req'
  known_le : imp.impKnownRepliedXid ≤ imp.ptlrpcLastXid

/-- The invariant of an import: its xids are well formed, and every request
on the unreplied list is above the known replied xid. -/
structure UnrepliedInv (imp : ObdImport) : Prop extends XidsWF imp where
  above_known : ∀ req ∈ imp.impUnrepliedList, imp.impKnownRepliedXid < imp.rqXid req

theorem UnrepliedInv.init (lastXid : Nat) : UnrepliedInv (ObdImport.init lastXid) where
  sorted := List.Pairwise.nil
  listed_sent := fun _ h => (List.not_mem_nil h).elim
  replay_sent := fun _ h => by simp [ObdImport.init] at h
  xid_le := fun _ => Nat.zero_le _
  xid_inj := fun _ _ h => (h rfl).elim
  known_le := Nat.zero_le _
  above_known := fun _ h => (List.not_mem_nil h).elim

/-! ## The unreplied list -/

section List

variable {imp : ObdImport}

/-- Another list of sent requests in order of xid keeps the xids well formed. -/
theorem XidsWF.withList (h : XidsWF imp) {l : List Nat}
    (hsorted : l.Pairwise fun a b => imp.rqXid a < imp.rqXid b) (hsent : ∀ req ∈ l, imp.rqXid req ≠ 0) :
    XidsWF { imp with impUnrepliedList := l } :=
  { h with sorted := hsorted, listed_sent := hsent }

theorem XidsWF.del (h : XidsWF imp) (req : Nat) : XidsWF (delUnreplied imp req) :=
  h.withList (h.sorted.sublist List.erase_sublist) fun _ hr => h.listed_sent _ (List.mem_of_mem_erase hr)

/-- A request is on the list at most once. -/
theorem XidsWF.nodup (h : XidsWF imp) : imp.impUnrepliedList.Nodup :=
  h.sorted.imp fun hab heq => by
    rw [heq] at hab
    exact lt_irrefl _ hab

theorem UnrepliedInv.del (h : UnrepliedInv imp) (req : Nat) : UnrepliedInv (delUnreplied imp req) :=
  { h.toXidsWF.del req with
    above_known := fun _ hr => h.above_known _ (List.mem_of_mem_erase hr) }

/-- `ptlrpc_add_unreplied` of a sent request off the list: no LASSERT fires,
and the request goes in at its place. -/
theorem XidsWF.addUnreplied (h : XidsWF imp) {req : Nat} (hreq : req ∉ imp.impUnrepliedList)
    (hsent : imp.rqXid req ≠ 0) :
    ∃ l, ptlrpcAddUnreplied imp req = some { imp with impUnrepliedList := l } ∧
      l.Perm (req :: imp.impUnrepliedList) ∧ XidsWF { imp with impUnrepliedList := l } := by
  -- no request on the list has its xid: xids belong to one request each
  have hne : ∀ y ∈ imp.impUnrepliedList, imp.rqXid y ≠ imp.rqXid req := fun y hy heq =>
    hreq (h.xid_inj req y hsent heq.symm ▸ hy)
  obtain ⟨l, hl, hperm, hsorted⟩ := SortedInsert.insertSorted_spec imp.rqXid req _ h.sorted hne
  refine ⟨l, by rw [ptlrpcAddUnreplied, if_neg hreq, hl, Option.map_some], hperm, h.withList hsorted ?_⟩
  intro y hy
  rcases List.mem_cons.mp (hperm.mem_iff.mp hy) with rfl | hy
  · exact hsent
  · exact h.listed_sent y hy

end List

/-! ## Assigning xids -/

section Assign

variable {imp : ObdImport} {req : Nat}

/-- The import once `ptlrpc_assign_next_xid_nolock` has drawn the next xid
for `req`, before it goes on the list. -/
def withNextXid (imp : ObdImport) (req : Nat) : ObdImport :=
  { imp with
    rqXid := Function.update imp.rqXid req (imp.ptlrpcLastXid + ptlrpcBulkOpsCount)
    ptlrpcLastXid := imp.ptlrpcLastXid + ptlrpcBulkOpsCount }

theorem ptlrpcAssignNextXidNolock_eq (imp : ObdImport) (req : Nat) :
    ptlrpcAssignNextXidNolock imp req = ptlrpcAddUnreplied (withNextXid imp req) req := rfl

theorem withNextXid_rqXid_self : (withNextXid imp req).rqXid req = imp.ptlrpcLastXid + ptlrpcBulkOpsCount :=
  Function.update_self _ _ _

theorem withNextXid_rqXid_ne {req' : Nat} (hne : req' ≠ req) : (withNextXid imp req).rqXid req' = imp.rqXid req' :=
  Function.update_of_ne hne _ _

/-- A fresh xid is above every xid handed out, and the known replied xid. -/
theorem XidsWF.drawXid (h : XidsWF imp) (hreq : req ∉ imp.impUnrepliedList) : XidsWF (withNextXid imp req) := by
  have hbulk : ptlrpcBulkOpsCount = 64 := rfl
  -- the xid of every request but `req` stays, the list's included
  have hold : ∀ r, r ≠ req → (withNextXid imp req).rqXid r = imp.rqXid r :=
    fun r hr => withNextXid_rqXid_ne hr
  have hlisted : ∀ r ∈ imp.impUnrepliedList, r ≠ req := fun r hr heq => hreq (heq ▸ hr)
  have hnew := @withNextXid_rqXid_self imp req
  refine ⟨?_, ?_, ?_, ?_, ?_, ?_⟩
  · refine h.sorted.imp_of_mem fun ha hb hab => ?_
    rw [hold _ (hlisted _ ha), hold _ (hlisted _ hb)]
    exact hab
  · intro r hr
    rw [hold _ (hlisted _ hr)]
    exact h.listed_sent r hr
  · intro r hr
    by_cases hrq : r = req
    · rw [hrq, hnew]
      omega
    · rw [hold _ hrq]
      exact h.replay_sent r hr
  · intro r
    show _ ≤ imp.ptlrpcLastXid + ptlrpcBulkOpsCount
    by_cases hrq : r = req
    · rw [hrq, hnew]
    · rw [hold _ hrq]
      exact (h.xid_le r).trans (Nat.le_add_right _ _)
  · intro r r' hr heq
    by_cases hrq : r = req <;> by_cases hrq' : r' = req
    · rw [hrq, hrq']
    · rw [hrq, hnew, hold _ hrq'] at heq
      have := h.xid_le r'
      omega
    · rw [hrq', hnew, hold _ hrq] at heq
      have := h.xid_le r
      omega
    · rw [hold _ hrq, hold _ hrq'] at heq
      rw [hold _ hrq] at hr
      exact h.xid_inj r r' hr heq
  · exact h.known_le.trans (Nat.le_add_right _ _)

/-- `ptlrpc_assign_next_xid_nolock` of a request off the list: no LASSERT
fires, and the request goes on the list with a fresh xid. -/
theorem XidsWF.assign (h : XidsWF imp) (hreq : req ∉ imp.impUnrepliedList) :
    ∃ l, ptlrpcAssignNextXidNolock imp req = some { withNextXid imp req with impUnrepliedList := l } ∧
      l.Perm (req :: imp.impUnrepliedList) ∧ XidsWF { withNextXid imp req with impUnrepliedList := l } := by
  have hsent : (withNextXid imp req).rqXid req ≠ 0 := by
    rw [withNextXid_rqXid_self]
    exact Nat.succ_ne_zero _
  rw [ptlrpcAssignNextXidNolock_eq]
  exact (h.drawXid hreq).addUnreplied hreq hsent

theorem UnrepliedInv.assign (h : UnrepliedInv imp) (hreq : req ∉ imp.impUnrepliedList) :
    ∃ l, ptlrpcAssignNextXidNolock imp req = some { withNextXid imp req with impUnrepliedList := l } ∧
      req ∈ l ∧ UnrepliedInv { withNextXid imp req with impUnrepliedList := l } := by
  obtain ⟨l, hl, hperm, hwf⟩ := h.toXidsWF.assign hreq
  refine ⟨l, hl, hperm.mem_iff.mpr List.mem_cons_self, { hwf with above_known := ?_ }⟩
  intro r hr
  show imp.impKnownRepliedXid < (withNextXid imp req).rqXid r
  rcases List.mem_cons.mp (hperm.mem_iff.mp hr) with rfl | hr
  · -- the fresh xid is above the counter, which the known replied xid is not
    rw [withNextXid_rqXid_self]
    have hbulk : ptlrpcBulkOpsCount = 64 := rfl
    have := h.known_le
    omega
  · rw [withNextXid_rqXid_ne fun heq : r = req => hreq (heq ▸ hr)]
    exact h.above_known r hr

theorem UnrepliedInv.reassign (h : UnrepliedInv imp) :
    ∃ imp', ptlrpcReassignNextXid imp req = some imp' ∧ UnrepliedInv imp' := by
  have hoff : req ∉ (delUnreplied imp req).impUnrepliedList := h.toXidsWF.nodup.not_mem_erase
  obtain ⟨l, hl, -, hinv⟩ := (h.del req).assign hoff
  exact ⟨_, hl, hinv⟩

theorem UnrepliedInv.nextXid (h : UnrepliedInv imp) : UnrepliedInv (ptlrpcNextXid imp).2 :=
  { h with
    xid_le := fun r => (h.xid_le r).trans (Nat.le_add_right _ _)
    known_le := h.known_le.trans (Nat.le_add_right _ _) }

end Assign

/-! ## The known replied xid -/

section Known

variable {imp : ObdImport}

/-- `ptlrpc_known_replied_xid` on well-formed xids: its LASSERTF holds, and
it returns an xid below every request on the list, to which it raises the
known replied xid. -/
theorem XidsWF.knownReplied (h : XidsWF imp) :
    ∃ xid, ptlrpcKnownRepliedXid imp =
        some (xid, { imp with impKnownRepliedXid := max imp.impKnownRepliedXid xid }) ∧
      (∀ req ∈ imp.impUnrepliedList, xid < imp.rqXid req) ∧ xid ≤ imp.ptlrpcLastXid := by
  have hsorted := h.sorted
  have hsent := h.listed_sent
  unfold ptlrpcKnownRepliedXid
  split
  · -- the list is empty: 0, and nothing changes
    rename_i hnil
    refine ⟨0, by rw [Nat.max_zero], fun r hr => ?_, Nat.zero_le _⟩
    rw [hnil] at hr
    exact absurd hr List.not_mem_nil
  · rename_i first rest hcons
    rw [hcons] at hsorted hsent
    have hfirst : 1 ≤ imp.rqXid first := Nat.one_le_iff_ne_zero.mpr (hsent first List.mem_cons_self)
    refine ⟨imp.rqXid first - 1, ?_, ?_, ?_⟩
    · rw [if_pos hfirst]
      dsimp only
      by_cases hlt : imp.impKnownRepliedXid < imp.rqXid first - 1
      · rw [if_pos hlt, max_eq_right hlt.le]
      · rw [if_neg hlt, max_eq_left (Nat.le_of_not_lt hlt)]
    · -- the first request is the lowest
      intro r hr
      rw [hcons] at hr
      rcases List.mem_cons.mp hr with rfl | hr
      · omega
      · have := List.rel_of_pairwise_cons hsorted hr
        omega
    · exact (Nat.sub_le _ _).trans (h.xid_le first)

/-- Raising the known replied xid to one below the list keeps the invariant. -/
theorem UnrepliedInv.raiseKnown (h : UnrepliedInv imp) {xid : Nat}
    (hbelow : ∀ req ∈ imp.impUnrepliedList, xid < imp.rqXid req) (hle : xid ≤ imp.ptlrpcLastXid) :
    UnrepliedInv { imp with impKnownRepliedXid := max imp.impKnownRepliedXid xid } :=
  { h with
    known_le := max_le h.known_le hle
    above_known := fun r hr => max_lt (h.above_known r hr) (hbelow r hr) }

/-- `imp_known_replied_xid = ptlrpc_known_replied_xid(imp)` brings the known
replied xid under the list, whatever it was. -/
theorem XidsWF.setKnown (h : XidsWF imp) :
    ∃ imp', setKnownRepliedXid imp = some imp' ∧ UnrepliedInv imp' := by
  obtain ⟨xid, hx, hbelow, hle⟩ := h.knownReplied
  refine ⟨{ imp with impKnownRepliedXid := xid }, by rw [setKnownRepliedXid, hx, Option.map_some], ?_⟩
  exact { h with known_le := hle, above_known := hbelow }

end Known

/-! ## Replay -/

section Replay

variable {imp : ObdImport}

/-- The walk over a list of sent requests adds them without an LASSERT. -/
theorem XidsWF.addReplay :
    ∀ (reqs : List Nat) (imp : ObdImport), XidsWF imp → (∀ req ∈ reqs, imp.rqXid req ≠ 0) →
      ∃ l, addReplayRequests imp reqs = some { imp with impUnrepliedList := l } ∧
        XidsWF { imp with impUnrepliedList := l }
  | [], imp, h, _ => ⟨imp.impUnrepliedList, rfl, h⟩
  | req :: reqs, imp, h, hsent => by
    have hrest : ∀ r ∈ reqs, imp.rqXid r ≠ 0 := fun r hr => hsent r (List.mem_cons_of_mem req hr)
    by_cases hon : req ∈ imp.impUnrepliedList
    · rw [addReplayRequests, if_pos hon]
      exact XidsWF.addReplay reqs imp h hrest
    · obtain ⟨l, hl, -, hwf⟩ := h.addUnreplied hon (hsent req List.mem_cons_self)
      obtain ⟨l', hl', hwf'⟩ := XidsWF.addReplay reqs _ hwf hrest
      exact ⟨l', by rw [addReplayRequests, if_neg hon, hl, Option.bind_some, hl'], hwf'⟩

theorem UnrepliedInv.prepareReplay (h : UnrepliedInv imp) (inReplay : Bool) :
    ∃ imp', ptlrpcPrepareReplay imp inReplay = some imp' ∧ UnrepliedInv imp' := by
  cases inReplay with
  | false => exact ⟨imp, rfl, h⟩
  | true =>
    -- the committed list, then the replay list, are added, and the known
    -- replied xid is set under the list they make
    obtain ⟨l, hl, hwf⟩ :=
      XidsWF.addReplay imp.impCommittedList imp h.toXidsWF fun r hr => h.replay_sent r (Or.inl hr)
    obtain ⟨l', hl', hwf'⟩ :=
      XidsWF.addReplay imp.impReplayList _ hwf fun r hr => h.replay_sent r (Or.inr hr)
    obtain ⟨imp', hset, hinv⟩ := hwf'.setKnown
    refine ⟨imp', ?_, hinv⟩
    rw [ptlrpcPrepareReplay, if_pos rfl, hl, Option.bind_some]
    exact (congrArg (·.bind Lustre.Ptlrpc.setKnownRepliedXid) hl').trans hset

theorem UnrepliedInv.replayNext (h : UnrepliedInv imp) (k : Nat) :
    ∃ imp', ptlrpcReplayNext imp k = some imp' ∧ UnrepliedInv imp' := by
  unfold ptlrpcReplayNext
  split
  · exact ⟨imp, rfl, h⟩
  · rename_i req hreq
    have hsent : imp.rqXid req ≠ 0 := h.replay_sent req (List.mem_append.mp (List.mem_of_getElem? hreq))
    by_cases hon : req ∈ imp.impUnrepliedList
    · refine ⟨imp, ?_, h⟩
      simp only [if_pos hon, Option.bind_some]
    · -- the request goes back on the list, under the known replied xid set again
      obtain ⟨l, hl, hperm, hwf⟩ := h.toXidsWF.addUnreplied hon hsent
      obtain ⟨imp', hset, hinv⟩ := hwf.setKnown
      have hlist : imp'.impUnrepliedList = l := by
        obtain ⟨xid, hx, -⟩ := hwf.knownReplied
        rw [setKnownRepliedXid, hx, Option.map_some, Option.some.injEq] at hset
        rw [← hset]
      have hin : req ∈ imp'.impUnrepliedList := hlist ▸ hperm.mem_iff.mpr List.mem_cons_self
      refine ⟨imp', ?_, hinv⟩
      simp only [if_neg hon, hl, Option.bind_some, hset, if_pos hin]

theorem UnrepliedInv.retain (h : UnrepliedInv imp) {req : Nat} (hsent : imp.rqXid req ≠ 0) (pos : Nat) :
    UnrepliedInv (ptlrpcRetainReplayableRequest imp req pos) := by
  unfold ptlrpcRetainReplayableRequest
  split
  · exact h
  · -- inserting leaves the list as it was past its end
    have hmem : ∀ r ∈ imp.impReplayList.insertIdx pos req, r = req ∨ r ∈ imp.impReplayList := by
      intro r hr
      by_cases hpos : pos ≤ imp.impReplayList.length
      · exact (List.mem_insertIdx hpos).mp hr
      · rw [List.insertIdx_of_length_lt (Nat.lt_of_not_le hpos)] at hr
        exact Or.inr hr
    refine { h with replay_sent := fun r hr => ?_ }
    rcases hr with hr | hr
    · exact h.replay_sent r (Or.inl hr)
    · rcases hmem r hr with rfl | hr
      · exact hsent
      · exact h.replay_sent r (Or.inr hr)

theorem UnrepliedInv.keepCommitted (h : UnrepliedInv imp) (req : Nat) :
    UnrepliedInv (ptlrpcKeepCommitted imp req) := by
  unfold ptlrpcKeepCommitted
  split
  · rename_i hreq
    refine { h with replay_sent := fun r hr => ?_ }
    rcases hr with hr | hr
    · rcases List.mem_append.mp hr with hr | hr
      · exact h.replay_sent r (Or.inl hr)
      · rw [List.mem_singleton.mp hr]
        exact h.replay_sent req (Or.inr hreq)
    · exact h.replay_sent r (Or.inr (List.mem_of_mem_erase hr))
  · exact h

theorem UnrepliedInv.free (h : UnrepliedInv imp) (req : Nat) : UnrepliedInv (ptlrpcFreeReq imp req) :=
  { h.del req with
    replay_sent := fun r hr =>
      h.replay_sent r (hr.imp List.mem_of_mem_erase List.mem_of_mem_erase) }

end Replay

/-! ## Sending -/

section Send

variable {imp : ObdImport}

/-- Every request still on the list is above the `last_xid` packed, if one
was. -/
def PackedBelow (lastXid : Option Nat) (imp : ObdImport) : Prop :=
  ∀ xid, lastXid = some xid → ∀ req ∈ imp.impUnrepliedList, xid < imp.rqXid req

theorem UnrepliedInv.sendNewReq (h : UnrepliedInv imp) {req : Nat} (hon : req ∈ imp.impUnrepliedList)
    (connect : Bool) :
    ∃ xid imp', ptlrpcSendNewReq imp req connect = some (xid, imp') ∧ UnrepliedInv imp' ∧
      ∀ r ∈ imp'.impUnrepliedList, xid < imp'.rqXid r := by
  have hcheck : ¬(imp.rqXid req = 0 ∨ req ∉ imp.impUnrepliedList) := by
    rintro (h0 | hoff)
    · exact h.listed_sent req hon h0
    · exact hoff hon
  cases connect with
  | true =>
    -- CONNECT packs 0, which is below every xid on the list
    refine ⟨0, imp, by rw [ptlrpcSendNewReq, if_neg hcheck, if_pos rfl], h, fun r hr => ?_⟩
    exact Nat.lt_of_le_of_lt (Nat.zero_le _) (h.above_known r hr)
  | false =>
    obtain ⟨xid, hx, hbelow, hle⟩ := h.toXidsWF.knownReplied
    exact ⟨xid, _, by rw [ptlrpcSendNewReq, if_neg hcheck, if_neg Bool.false_ne_true, hx],
      h.raiseKnown hbelow hle, hbelow⟩

/-- `ptl_send_rpc` of a request on the list: its xid stays, and the LBUG
does not fire. -/
theorem ptlSendRpc_listed (h : UnrepliedInv imp) {req : Nat} (hon : req ∈ imp.impUnrepliedList)
    (nrResend : Bool) : ptlSendRpc imp req nrResend = some (none, imp) := by
  have hein : ¬(nrResend = true ∧ req ∉ imp.impUnrepliedList) := fun h' => h'.2 hon
  rw [ptlSendRpc, if_neg hein, Option.bind_some]
  dsimp only
  split_ifs with hc
  · rcases hc with hc | hc
    · exact absurd hon hc
    · exact absurd hc (not_le.mpr (h.above_known req hon))
  · rfl

/-- The resend after `-EINPROGRESS` of a request off the list: a fresh xid,
above the known replied xid however high `ptlrpc_known_replied_xid` raises
it, so the LBUG does not fire, and a `last_xid` below the whole list. -/
theorem UnrepliedInv.einprogress (h : UnrepliedInv imp) {req : Nat} (hoff : req ∉ imp.impUnrepliedList) :
    ∃ xid imp', ptlSendRpc imp req true = some (some xid, imp') ∧ UnrepliedInv imp' ∧
      ∀ r ∈ imp'.impUnrepliedList, xid < imp'.rqXid r := by
  obtain ⟨l, hl, hin, hinv⟩ := h.assign hoff
  obtain ⟨xid, hx, hbelow, hle⟩ := hinv.toXidsWF.knownReplied
  have habove := max_lt (hinv.above_known req hin) (hbelow req hin)
  refine ⟨xid, _, ?_, hinv.raiseKnown hbelow hle, hbelow⟩
  have hein : true = true ∧ req ∉ imp.impUnrepliedList := ⟨rfl, hoff⟩
  rw [ptlSendRpc, if_pos hein, hl, Option.bind_some, hx, Option.map_some, Option.bind_some]
  dsimp only
  split_ifs with hc
  · rcases hc with hc | hc
    · exact absurd hin hc
    · exact absurd hc (not_le.mpr habove)
  · rfl

theorem UnrepliedInv.sendRpc (h : UnrepliedInv imp) {req : Nat} {nrResend : Bool}
    (hallowed : req ∈ imp.impUnrepliedList ∨ nrResend = true) :
    ∃ lastXid imp', ptlSendRpc imp req nrResend = some (lastXid, imp') ∧ UnrepliedInv imp' ∧
      PackedBelow lastXid imp' := by
  by_cases hon : req ∈ imp.impUnrepliedList
  · exact ⟨none, imp, ptlSendRpc_listed h hon nrResend, h, fun _ hx => nomatch hx⟩
  · have hre : nrResend = true := hallowed.resolve_left hon
    rw [hre]
    obtain ⟨xid, imp', hs, hinv, hbelow⟩ := h.einprogress hon
    refine ⟨some xid, imp', hs, hinv, fun x hx => ?_⟩
    rw [Option.some.injEq] at hx
    exact hx ▸ hbelow

end Send

/-! ## Runs -/

/-- Every operation the callers may make, from an import with the invariant,
returns, keeps the invariant, and packs a `last_xid` below every request
still waiting for a reply. -/
theorem ptlrpcXidStep_spec {imp : ObdImport} (h : UnrepliedInv imp) :
    ∀ e, XidAllowed imp e →
      ∃ lastXid imp', ptlrpcXidStep imp e = some (lastXid, imp') ∧ UnrepliedInv imp' ∧ PackedBelow lastXid imp'
  | .assign req, hoff => by
    obtain ⟨l, hl, -, hinv⟩ := h.assign hoff
    exact ⟨none, _, by rw [ptlrpcXidStep, hl, Option.map_some], hinv, fun _ hx => nomatch hx⟩
  | .reassign req, _ => by
    obtain ⟨imp', hr, hinv⟩ : ∃ imp', ptlrpcReassignNextXid imp req = some imp' ∧ UnrepliedInv imp' :=
      h.reassign
    exact ⟨none, imp', by rw [ptlrpcXidStep, hr, Option.map_some], hinv, fun _ hx => nomatch hx⟩
  | .replied req, _ => ⟨none, _, rfl, h.del req, fun _ hx => nomatch hx⟩
  | .retain req pos, hsent => ⟨none, _, rfl, h.retain hsent pos, fun _ hx => nomatch hx⟩
  | .keepCommitted req, _ => ⟨none, _, rfl, h.keepCommitted req, fun _ hx => nomatch hx⟩
  | .free req, _ => ⟨none, _, rfl, h.free req, fun _ hx => nomatch hx⟩
  | .prepareReplay inReplay, _ => by
    obtain ⟨imp', hp, hinv⟩ := h.prepareReplay inReplay
    exact ⟨none, imp', by rw [ptlrpcXidStep, hp, Option.map_some], hinv, fun _ hx => nomatch hx⟩
  | .replayNext k, _ => by
    obtain ⟨imp', hp, hinv⟩ := h.replayNext k
    exact ⟨none, imp', by rw [ptlrpcXidStep, hp, Option.map_some], hinv, fun _ hx => nomatch hx⟩
  | .sendNewReq req connect, hon => by
    obtain ⟨xid, imp', hs, hinv, hbelow⟩ := h.sendNewReq hon connect
    refine ⟨some xid, imp', by rw [ptlrpcXidStep, hs, Option.map_some], hinv, fun x hx => ?_⟩
    rw [Option.some.injEq] at hx
    exact hx ▸ hbelow
  | .sendRpc req nrResend, hallowed => h.sendRpc hallowed
  | .nextXid, _ => ⟨none, _, rfl, h.nextXid, fun _ hx => nomatch hx⟩

/-- Over every run of the operations the callers may make on a new import:
no LASSERT or LBUG fires; the unreplied list is in strictly increasing order
of xid and above the known replied xid; and the next operation returns too,
packing as `last_xid` an xid below every request still waiting for a reply. -/
theorem ptlrpc_unreplied_list_ordered (lastXid : Nat) (evs : List XidEvent)
    (hrun : AllowedRun ptlrpcXidStep XidAllowed (ObdImport.init lastXid) evs) :
    ∃ rs imp, run ptlrpcXidStep (ObdImport.init lastXid) evs = some (rs, imp) ∧
      imp.impUnrepliedList.Pairwise (fun a b => imp.rqXid a < imp.rqXid b) ∧
      (∀ req ∈ imp.impUnrepliedList, imp.impKnownRepliedXid < imp.rqXid req) ∧
      ∀ e, XidAllowed imp e → ∃ packed imp', ptlrpcXidStep imp e = some (packed, imp') ∧
        ∀ xid, packed = some xid → ∀ req ∈ imp'.impUnrepliedList, xid < imp'.rqXid req := by
  obtain ⟨rs, imp, hr, -, hinv⟩ :=
    run_total ptlrpcXidStep XidAllowed UnrepliedInv (fun _ => True)
      (fun imp e ha hinv =>
        let ⟨r, imp', hs, hinv', _⟩ := ptlrpcXidStep_spec hinv e ha
        ⟨r, imp', hs, trivial, hinv'⟩)
      evs _ hrun (UnrepliedInv.init lastXid)
  refine ⟨rs, imp, hr, hinv.sorted, hinv.above_known, fun e ha => ?_⟩
  obtain ⟨packed, imp', hs, -, hbelow⟩ := ptlrpcXidStep_spec hinv e ha
  exact ⟨packed, imp', hs, hbelow⟩

/-- A replay: request 0 is replied and kept for replay, `ptlrpc_prepare_replay`
adds it back under request 1, still waiting, and both are sent. -/
theorem ptlrpc_unreplied_list_replay_run :
    ∃ rs imp, run ptlrpcXidStep (ObdImport.init 0)
        [.assign 0, .assign 1, .sendNewReq 1 false, .replied 0, .retain 0 0, .prepareReplay true,
          .sendNewReq 0 false] = some (rs, imp) ∧
      ∀ e, XidAllowed imp e → ∃ packed imp', ptlrpcXidStep imp e = some (packed, imp') := by
  have hrun : AllowedRun ptlrpcXidStep XidAllowed (ObdImport.init 0)
      [.assign 0, .assign 1, .sendNewReq 1 false, .replied 0, .retain 0 0, .prepareReplay true,
        .sendNewReq 0 false] :=
    allowedRun_cons_of_step ptlrpcXidStep XidAllowed (by decide) rfl <|
      allowedRun_cons_of_step ptlrpcXidStep XidAllowed (by decide) rfl <|
      allowedRun_cons_of_step ptlrpcXidStep XidAllowed (by decide) rfl <|
      allowedRun_cons_of_step ptlrpcXidStep XidAllowed (by decide) rfl <|
      allowedRun_cons_of_step ptlrpcXidStep XidAllowed (by decide) rfl <|
      allowedRun_cons_of_step ptlrpcXidStep XidAllowed (by decide) rfl <|
      allowedRun_cons_of_step ptlrpcXidStep XidAllowed (by decide) rfl trivial
  obtain ⟨rs, imp, hr, -, -, hnext⟩ := ptlrpc_unreplied_list_ordered 0 _ hrun
  exact ⟨rs, imp, hr, fun e he => (hnext e he).imp fun _ ⟨imp', hs, _⟩ => ⟨imp', hs⟩⟩

end Lustre.Ptlrpc
