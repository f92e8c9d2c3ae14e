import Mathlib
import Lustre.Target.Grant

/-! # The grant accounting, and the `LBUG` an inflated `o_dirty` reaches

What `tgt_grant_sanity_check` verifies, `GrantInv`: each `u64` total equals
the sum over the exports of the value it totals, taken modulo `2^64` as the
check adds them. Every operation changes one export, and moves its total by
what that export's value moved (`Follows`); one lemma, `GrantInv.set`,
turns that into the invariant. So the accounting holds after every run
(`tgt_grant_run_accounting`), whatever the client sends.

What does not hold is that the per-export values stay non-negative. The
check of `o_dirty` against a negative value comes before the inflation of a
client that counts in 4 KiB pages: on a target with 64 KiB blocks an
`o_dirty` of `2^59` becomes `2^63`, which is negative as a `long long`, is
below the cap, and becomes `ted_dirty`; `tgt_grant_incoming` then ends in
its `LBUG` (`tgt_grant_prepare_read_inflated_dirty_lbug`).
-/

namespace Lustre.Target

open CArith StepRun

/-! ## Sums over the exports -/

/-- `tgt_grant_sanity_check`'s sum of a per-export value: each `long` added
to a `u64`. -/
def exportSum (f : TgExport → Int) (l : List TgExport) : UInt64 :=
  (l.map fun e => UInt64.ofInt (f e)).sum

/-- Replacing one export moves a sum over the exports by what its value
moved. -/
theorem exportSum_set (f : TgExport → Int) {l : List TgExport} {i : Nat} {x : TgExport}
    (hx : l[i]? = some x) (y : TgExport) :
    exportSum f (l.set i y) = exportSum f l - UInt64.ofInt (f x) + UInt64.ofInt (f y) := by
  obtain ⟨hi, rfl⟩ := List.getElem?_eq_some_iff.mp hx
  have hi' : i < (l.map fun e => UInt64.ofInt (f e)).length := by simpa using hi
  rw [exportSum, exportSum, List.map_set, List.sum_set', dif_pos hi', List.getElem_map]
  abel

/-! ## The invariant -/

/-- What `tgt_grant_sanity_check` verifies, over the self, live and unlinked
exports. -/
structure GrantInv (s : TgState) : Prop where
  tot_granted : s.tgd.tgdTotGranted = exportSum (fun e => e.tedGrant + e.tedPending) s.exports
  tot_pending : s.tgd.tgdTotPending = exportSum TgExport.tedPending s.exports
  tot_dirty : s.tgd.tgdTotDirty = exportSum TgExport.tedDirty s.exports

/-- The per-export values the `LBUG`s of `tgt_grant_incoming` and
`tgt_grant_alloc` require to be non-negative. -/
def TedNonneg (ted : TgExport) : Prop := 0 ≤ ted.tedGrant ∧ 0 ≤ ted.tedPending ∧ 0 ≤ ted.tedDirty

/-- A change of one export's values that the totals follow: each total
moves by what the export's value moved. -/
structure Follows (tgd : TgGrants) (ted : TgExport) (tgd' : TgGrants) (ted' : TgExport) : Prop where
  granted : tgd'.tgdTotGranted - UInt64.ofInt (ted'.tedGrant + ted'.tedPending) =
    tgd.tgdTotGranted - UInt64.ofInt (ted.tedGrant + ted.tedPending)
  pending : tgd'.tgdTotPending - UInt64.ofInt ted'.tedPending = tgd.tgdTotPending - UInt64.ofInt ted.tedPending
  dirty : tgd'.tgdTotDirty - UInt64.ofInt ted'.tedDirty = tgd.tgdTotDirty - UInt64.ofInt ted.tedDirty

section Follows

variable {tgd tgd₁ tgd₂ : TgGrants} {ted ted₁ ted₂ : TgExport}

theorem Follows.refl (tgd : TgGrants) (ted : TgExport) : Follows tgd ted tgd ted := ⟨rfl, rfl, rfl⟩

theorem Follows.trans (h₁ : Follows tgd ted tgd₁ ted₁) (h₂ : Follows tgd₁ ted₁ tgd₂ ted₂) :
    Follows tgd ted tgd₂ ted₂ :=
  ⟨h₂.granted.trans h₁.granted, h₂.pending.trans h₁.pending, h₂.dirty.trans h₁.dirty⟩

end Follows

/-- The invariant is kept when one export changes in a way the totals
follow. -/
theorem GrantInv.set {s : TgState} (h : GrantInv s) {i : Nat} {ted : TgExport} (hi : s.exports[i]? = some ted)
    {tgd' : TgGrants} {ted' : TgExport} (hf : Follows s.tgd ted tgd' ted') :
    GrantInv { tgd := tgd', exports := s.exports.set i ted' } where
  tot_granted := by
    have hg := hf.granted
    rw [exportSum_set _ hi, ← h.tot_granted]
    dsimp only
    rw [← sub_eq_iff_eq_add, hg]
  tot_pending := by
    have hp := hf.pending
    rw [exportSum_set _ hi, ← h.tot_pending]
    rw [← sub_eq_iff_eq_add, hp]
  tot_dirty := by
    have hd := hf.dirty
    rw [exportSum_set _ hi, ← h.tot_dirty]
    rw [← sub_eq_iff_eq_add, hd]

/-! ## The operations -/

/-- An early return of `(0, tgd, ted)` changes nothing. -/
theorem follows_of_eq {tgd tgd' : TgGrants} {ted ted' : TgExport} {g g' : UInt64}
    (h : (g, tgd, ted) = (g', tgd', ted')) : Follows tgd ted tgd' ted' := by
  simp only [Prod.mk.injEq] at h
  obtain ⟨-, rfl, rfl⟩ := h
  exact Follows.refl tgd ted

/-- A returned result of a conditional early return is the early one or the
rest's. -/
theorem eq_or_of_ite_some {α : Type} {c : Prop} [Decidable c] {a r : α} {x : Option α}
    (h : (if c then some a else x) = some r) : a = r ∨ x = some r := by
  split at h
  · exact .inl (Option.some.inj h)
  · exact .inr h

section Operations

variable {tgd tgd' : TgGrants} {ted ted' : TgExport} {oa oa' : Obdo}

/-- The accounting of `tgt_grant_incoming` is followed, and when it returns
the export's values are non-negative: that is what its `LBUG` checks. -/
theorem tgtGrantIncomingAccount_spec {dirty dropped chunk : Int}
    (h : tgtGrantIncomingAccount tgd ted dirty dropped chunk = some (tgd', ted')) :
    Follows tgd ted tgd' ted' ∧ TedNonneg ted' := by
  unfold tgtGrantIncomingAccount at h
  rw [Option.ite_none_left_eq_some, Option.some.injEq, Prod.mk.injEq] at h
  obtain ⟨hok, rfl, rfl⟩ := h
  refine ⟨⟨?_, rfl, ?_⟩, ?_⟩
  · -- the dropped grant leaves the export and the total alike
    simp only [ofInt_narrowLong, UInt64.ofInt_add, ofInt_sub]
    abel
  · simp only [ofInt_sub]
    abel
  · unfold TedNonneg
    dsimp only at hok ⊢
    omega

theorem tgtGrantIncoming_follows {chunk : Int} (h : tgtGrantIncoming tgd ted oa chunk = some (tgd', ted', oa')) :
    Follows tgd ted tgd' ted' := by
  unfold tgtGrantIncoming at h
  split at h
  · -- no grant information in the request
    simp only [Option.some.injEq, Prod.mk.injEq] at h
    obtain ⟨rfl, rfl, -⟩ := h
    exact Follows.refl tgd ted
  · obtain ⟨⟨tgd₁, ted₁⟩, hacc, heq⟩ := Option.map_eq_some_iff.mp h
    simp only [Prod.mk.injEq] at heq
    obtain ⟨rfl, rfl, -⟩ := heq
    exact (tgtGrantIncomingAccount_spec hacc).1

theorem tgtGrantShrink_follows (left : Nat) :
    Follows tgd ted (tgtGrantShrink tgd ted oa left).1 (tgtGrantShrink tgd ted oa left).2.1 := by
  unfold tgtGrantShrink
  -- a variable for what the client offers, which the kernel then need not evaluate
  generalize narrowLong (oa.oGrant.toNat : Int) = offered
  by_cases hl : left ≥ tgd.tgdTotGrantedClients * tgtGrantShrinkLimit ted
  · simp only [if_pos hl]
    exact Follows.refl tgd ted
  · simp only [if_neg hl]
    constructor
    · -- what the client gives back leaves the export and the total alike
      simp only [ofInt_narrowLong, UInt64.ofInt_add, ofInt_sub]
      abel
    · rfl
    · rfl

theorem tgtGrantPrepareRead_follows {self : Bool} {left : Nat}
    (h : tgtGrantPrepareRead tgd self ted oa left = some (tgd', ted', oa')) : Follows tgd ted tgd' ted' := by
  unfold tgtGrantPrepareRead at h
  split at h
  · simp only [Option.some.injEq, Prod.mk.injEq] at h
    obtain ⟨rfl, rfl, -⟩ := h
    exact Follows.refl tgd ted
  · obtain ⟨⟨tgd₁, ted₁, oa₁⟩, hin, heq⟩ := Option.map_eq_some_iff.mp h
    simp only [Prod.mk.injEq] at heq
    obtain ⟨rfl, rfl, -⟩ := heq
    refine (tgtGrantIncoming_follows hin).trans ?_
    -- the shrink, if asked for, is followed; the deflation touches the reply only
    split
    · exact tgtGrantShrink_follows left
    · exact Follows.refl tgd₁ ted₁

theorem tgtGrantAlloc_follows {self conservative : Bool} {curgrant want left grant : UInt64} {chunk : Int}
    (h : tgtGrantAlloc tgd self ted curgrant want left chunk conservative = some (grant, tgd', ted')) :
    Follows tgd ted tgd' ted' := by
  unfold tgtGrantAlloc at h
  extract_lets grantU chunkU cons left' g₁ g₂ g₃ g₄ tgd₁ ted₁ at h
  -- each of the five early returns grants nothing
  iterate 5 (rcases eq_or_of_ite_some h with h | h; · exact follows_of_eq h)
  rw [Option.ite_none_left_eq_some, Option.some.injEq, Prod.mk.injEq, Prod.mk.injEq] at h
  obtain ⟨-, -, rfl, rfl⟩ := h
  constructor
  · simp only [tgd₁, ted₁, grantU, UInt64.ofInt_add, ofInt_narrowLong, ofInt_toNat]
    abel
  · rfl
  · rfl

/-- The reset of the dirty accounting at connection is followed. -/
theorem follows_reset_dirty (tgd : TgGrants) (ted : TgExport) :
    Follows tgd ted { tgd with tgdTotDirty := tgd.tgdTotDirty - UInt64.ofInt ted.tedDirty } { ted with tedDirty := 0 } :=
  ⟨rfl, rfl, by rw [show UInt64.ofInt 0 = 0 from rfl, sub_zero]⟩

theorem tgtGrantConnect_follows {self rdonly grantFlag newConn : Bool} {ocdGrant left : UInt64}
    (h : tgtGrantConnect tgd self ted rdonly grantFlag ocdGrant left newConn = some (tgd', ted')) :
    Follows tgd ted tgd' ted' := by
  unfold tgtGrantConnect at h
  split at h
  · simp only [Option.some.injEq, Prod.mk.injEq] at h
    obtain ⟨rfl, rfl⟩ := h
    exact Follows.refl tgd ted
  · obtain ⟨⟨g, tgd₁, ted₁⟩, halloc, heq⟩ := Option.map_eq_some_iff.mp h
    simp only [Prod.mk.injEq] at heq
    obtain ⟨rfl, rfl⟩ := heq
    refine (tgtGrantAlloc_follows halloc).trans ?_
    have hd := follows_reset_dirty tgd₁ ted₁
    -- a new client is counted, which is no value of an export
    split
    · exact ⟨hd.granted, hd.pending, hd.dirty⟩
    · exact hd

theorem tgtGrantDiscard_follows : Follows tgd ted (tgtGrantDiscard tgd ted).1 (tgtGrantDiscard tgd ted).2 := by
  constructor
  · -- the grant leaves, the pending grant stays until its writes commit
    simp only [tgtGrantDiscard, zero_add, UInt64.ofInt_add]
    abel
  · rfl
  · simp only [tgtGrantDiscard, show UInt64.ofInt 0 = 0 from rfl, sub_zero]

end Operations

/-! ## Runs -/

/-- Every operation keeps the accounting: it changes one export, in a way
the totals follow. -/
theorem tgtGrantStep_inv {s s' : TgState} {e : GrantEvent} {r : Unit} (h : GrantInv s)
    (hs : tgtGrantStep s e = some (r, s')) : GrantInv s' := by
  unfold tgtGrantStep at hs
  split at hs
  · -- no export at that index: nothing happens
    simp only [Option.some.injEq, Prod.mk.injEq] at hs
    rw [← hs.2]
    exact h
  · rename_i ted hted
    obtain ⟨⟨tgd', ted'⟩, hres, heq⟩ := Option.map_eq_some_iff.mp hs
    simp only [Prod.mk.injEq] at heq
    rw [← heq.2]
    apply h.set hted
    -- the operation's own lemma says its change is followed
    cases e with
    | connect i rdonly grantFlag ocdGrant left newConn => exact tgtGrantConnect_follows hres
    | prepareRead i oa left =>
      obtain ⟨⟨tgd₁, ted₁, oa₁⟩, hread, hpair⟩ := Option.map_eq_some_iff.mp hres
      simp only [Prod.mk.injEq] at hpair
      obtain ⟨rfl, rfl⟩ := hpair
      exact tgtGrantPrepareRead_follows hread
    | discard i =>
      have hf := @tgtGrantDiscard_follows s.tgd ted
      rw [Option.some.injEq] at hres
      rw [hres] at hf
      exact hf

/-- Whatever the clients send, the accounting that `tgt_grant_sanity_check`
verifies holds after every run of grant operations that does not stop at
an `LBUG`. -/
theorem tgt_grant_run_accounting (es : List GrantEvent) (s : TgState) (rs : List Unit) (s' : TgState)
    (h : GrantInv s) (hrun : run tgtGrantStep s es = some (rs, s')) : GrantInv s' :=
  run_inv tgtGrantStep (fun _ _ => True) GrantInv (fun _ _ _ _ _ hs hstep => tgtGrantStep_inv hs hstep)
    es s rs s' (allowedRun_of_forall tgtGrantStep (fun _ => True) es s fun _ _ => trivial) h hrun

/-! ## A client that counts in pages, on a target with 64 KiB blocks -/

/-- An export that holds nothing yet. -/
def newExport (client : Bool × Nat) : TgExport :=
  { tedGrant := 0, tedPending := 0, tedDirty := 0, grantParam := client.1, maxBrwSize := client.2, expFailed := false }

/-- A target with `2^blockbits`-byte blocks that has granted nothing yet,
with exports, given by whether they have the grant parameters and their
largest bulk RPC, that hold nothing yet. -/
def newTarget (blockbits : Nat) (clients : List (Bool × Nat)) : TgState where
  tgd :=
    { tgdTotDirty := 0, tgdTotGranted := 0, tgdTotPending := 0, tgdTotGrantedClients := 0, tgdBlockbits := blockbits
      tgdGrantCompatDisable := false, ddpInodespace := 4096, ddpMaxExtentBlks := 32768, ddpExtentTax := 4096
      obdRecovering := false }
  exports := clients.map newExport

theorem exportSum_eq_zero {f : TgExport → Int} : ∀ {l : List TgExport}, (∀ e ∈ l, f e = 0) → exportSum f l = 0
  | [], _ => rfl
  | e :: l, h => by
    have he : f e = 0 := h e List.mem_cons_self
    have hl := exportSum_eq_zero fun x hx => h x (List.mem_cons_of_mem e hx)
    simp only [exportSum, List.map_cons, List.sum_cons] at hl ⊢
    rw [he, hl]
    rfl

theorem newTarget_grantInv (blockbits : Nat) (clients : List (Bool × Nat)) :
    GrantInv (newTarget blockbits clients) := by
  -- every export of a new target holds nothing
  have hzero : ∀ e ∈ (newTarget blockbits clients).exports, e.tedGrant = 0 ∧ e.tedPending = 0 ∧ e.tedDirty = 0 := by
    intro e he
    obtain ⟨c, -, rfl⟩ := List.mem_map.mp he
    exact ⟨rfl, rfl, rfl⟩
  constructor
  · rw [exportSum_eq_zero fun e he => by rw [(hzero e he).1, (hzero e he).2.1]; rfl]
    rfl
  · rw [exportSum_eq_zero fun e he => (hzero e he).2.1]
    rfl
  · rw [exportSum_eq_zero fun e he => (hzero e he).2.2]
    rfl

/-- A read announcing 4 KiB dirty, with the grant fields valid. -/
def smallDirtyRead : Obdo :=
  { oValid := obdMdFlblocks ||| obdMdFlgrant, oGrant := 0, oDirty := 4096, oUndirty := 0, oDropped := 0, oFlags := 0 }

/-- A new target, a client that connects asking for 1 MiB of grant, reads
with 4 KiB dirty, and is discarded. -/
theorem tgt_grant_run_accounting_connect_read :
    GrantInv (newTarget 16 [(true, 4194304)]) ∧
      ∃ rs s', run tgtGrantStep (newTarget 16 [(true, 4194304)])
          [.connect 0 false true 1048576 100000000 true,
            .prepareRead 0 smallDirtyRead 100000000,
            .discard 0] = some (rs, s') ∧ GrantInv s' := by
  obtain ⟨⟨rs, s'⟩, hrun⟩ : ∃ r, run tgtGrantStep (newTarget 16 [(true, 4194304)])
      [.connect 0 false true 1048576 100000000 true,
        .prepareRead 0 smallDirtyRead 100000000,
        .discard 0] = some r := ⟨_, rfl⟩
  exact ⟨newTarget_grantInv _ _, rs, s', hrun, tgt_grant_run_accounting _ _ _ _ (newTarget_grantInv _ _) hrun⟩

instance : DecidablePred TedNonneg := fun ted =>
  inferInstanceAs (Decidable (0 ≤ ted.tedGrant ∧ 0 ≤ ted.tedPending ∧ 0 ≤ ted.tedDirty))

set_option maxRecDepth 4096 in
/-- On a new target with 64 KiB blocks, a client without the grant
parameters announces `2^59` bytes dirty in a read: the check for a negative
`o_dirty` passes, the inflation by `2^4` makes it `2^63`, which as a
`long long` is negative and below the cap, so it becomes `ted_dirty` and
`tgt_grant_incoming` reaches its `LBUG`. -/
theorem tgt_grant_prepare_read_inflated_dirty_lbug :
    GrantInv (newTarget 16 [(true, 4194304), (false, 1048576)]) ∧
      (∀ ted ∈ (newTarget 16 [(true, 4194304), (false, 1048576)]).exports, TedNonneg ted) ∧
      tgtGrantStep (newTarget 16 [(true, 4194304), (false, 1048576)])
        (.prepareRead 1
          { oValid := obdMdFlblocks ||| obdMdFlgrant, oGrant := 0, oDirty := 2 ^ 59, oUndirty := 0, oDropped := 0
            oFlags := 0 } 0) = none :=
  ⟨newTarget_grantInv _ _, by decide, rfl⟩

end Lustre.Target
