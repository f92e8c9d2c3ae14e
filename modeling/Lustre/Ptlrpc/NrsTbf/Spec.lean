import Mathlib
import Lustre.Lib.Glob
import Lustre.Lib.Run
import Lustre.Ptlrpc.NrsTbf

/-! # Jobid patterns and the buckets of the TBF policy

`cfs_match_wildcard` is measured against the glob language `GlobMatch '*'`.
The early exit for a star with more pattern after it rejects `a**` against
`a`, and a star of the pattern is consumed by a star of the jobid before the
star itself is tried, so `*b` misses `*ab`.

For the bucket, `TbfQueued` says that a class is in the heap exactly when it
has requests. Under a rule that is not realtime `TbfDepthInv` adds that the
tokens kept are at most the depth, and every run of the calls the policy
makes returns and keeps it (`nrs_tbf_run_depth`). Under a realtime rule the
residual `tc_nsecs_resid` reaches `tc_nsecs` when the residual and the part
of a period that passed add up to exactly one period: the residual is
carried only when the sum is above a period, and the dequeue keeps it. The
`LASSERT` on the residual can then trip.

The refill `passed * tc_rpc_rate / NSEC_PER_SEC` is exact while the product
stays below `2^64`; beyond that it wraps.
-/

namespace Lustre.Ptlrpc

open Glob StepRun

/-! ## The matcher against the glob language -/

section Wildcard

theorem cfs_match_wildcard_misses_glob_matches :
    GlobMatch '*' ['a', '*', '*'] ['a'] ∧ cfsMatchWildcard ['a', '*', '*'] ['a'] = false ∧
      GlobMatch '*' ['*', 'b'] ['*', 'a', 'b'] ∧ cfsMatchWildcard ['*', 'b'] ['*', 'a', 'b'] = false := by
  refine ⟨.lit (by decide) (.starSkip (.starSkip .nil)), ?_, .starEat (.starEat (.starSkip (.lit (by decide) .nil))), ?_⟩
  · -- the early exit for a star with more pattern after it, at the end of the jobid
    simp [cfsMatchWildcard_cons_self]
  · -- the star of the pattern is spent on the star of the jobid
    simp [cfsMatchWildcard_cons_self, cfsMatchWildcard_lit_cons]

end Wildcard

/-! ## One dequeue -/

section Dequeue

variable {realtime : Bool} {now passed ntoken n : UInt64} {cli c cli' : NrsTbfClient} {r : TbfGet}

/-- What the realtime carry can do: it needs a residual below a period, and
adds one token when the residual and the part of a period that passed make
more than a period. -/
theorem tbfRealtimeCarry_eq_some (h : tbfRealtimeCarry passed ntoken cli = some (n, c)) :
    cli.tcNsecsResid < cli.tcNsecs ∧
      (cli.tcNsecs < cli.tcNsecsResid + passed % cli.tcNsecs ∧ n = ntoken + 1 ∧
          c = { cli with tcNsecsResid := cli.tcNsecsResid + passed % cli.tcNsecs - cli.tcNsecs } ∨
        ¬ cli.tcNsecs < cli.tcNsecsResid + passed % cli.tcNsecs ∧ n = ntoken ∧
          c = { cli with tcNsecsResid := cli.tcNsecsResid + passed % cli.tcNsecs }) := by
  unfold tbfRealtimeCarry at h
  by_cases hlt : cli.tcNsecsResid < cli.tcNsecs
  · rw [if_neg (not_not.mpr hlt)] at h
    dsimp only at h
    refine ⟨hlt, ?_⟩
    split_ifs at h with hgt
    · simp only [Option.some.injEq, Prod.mk.injEq] at h
      exact .inl ⟨hgt, h.1.symm, h.2.symm⟩
    · simp only [Option.some.injEq, Prod.mk.injEq] at h
      exact .inr ⟨hgt, h.1.symm, h.2.symm⟩
  · rw [if_pos hlt] at h
    cases h

/-- The count changes the residual of the class and nothing else. -/
theorem tbfCount_eq_some (h : tbfCount realtime now cli = some (n, c)) :
    ∃ resid, c = { cli with tcNsecsResid := resid } := by
  cases realtime with
  | false =>
    simp only [tbfCount, Bool.false_eq_true, if_false, Option.some.injEq, Prod.mk.injEq] at h
    exact ⟨cli.tcNsecsResid, h.2.symm⟩
  | true =>
    rcases (tbfRealtimeCarry_eq_some h).2 with ⟨-, -, hc⟩ | ⟨-, -, hc⟩
    · exact ⟨_, hc⟩
    · exact ⟨_, hc⟩

/-- Under a rule that is not realtime the count is capped at the depth. -/
theorem tbfCount_false_le (h : tbfCount false now cli = some (n, c)) : n ≤ cli.tcDepth := by
  simp only [tbfCount, Bool.false_eq_true, if_false, Option.some.injEq, Prod.mk.injEq] at h
  rw [← h.1]
  split_ifs with hgt
  · exact UInt64.le_refl _
  · exact UInt64.not_lt.mp hgt

/-- The `LASSERT` of a realtime count is the only way it fails. -/
theorem tbfCount_isSome (hrt : realtime = true → cli.tcNsecsResid < cli.tcNsecs) :
    ∃ n c, tbfCount realtime now cli = some (n, c) := by
  cases realtime with
  | false => exact ⟨_, _, rfl⟩
  | true =>
    simp only [tbfCount, if_true, tbfRealtimeCarry, if_neg (not_not.mpr (hrt rfl))]
    split_ifs
    · exact ⟨_, _, rfl⟩
    · exact ⟨_, _, rfl⟩

/-- A class of rate 1024 and depth 3 that spent its three tokens at time 0
and has one request left. -/
def tbfSpent : NrsTbfClient :=
  { nrsTbfCliNew 1024 3 0 with tcNtoken := 0, tcDeadline := 976562, tcList := [4], tcInHeap := true }

theorem nrs_tbf_refill_wraps_after_idle :
    AllowedRun (nrsTbfStep false) NrsTbfAllowed (nrsTbfCliNew 1024 3 0)
        [.add true 1, .add true 2, .add true 3, .add true 4, .get 0, .get 0, .get 0] ∧
      run (nrsTbfStep false) (nrsTbfCliNew 1024 3 0)
          [.add true 1, .add true 2, .add true 3, .add true 4, .get 0, .get 0, .get 0] =
        some ([none, none, none, none, some (.dequeued 1), some (.dequeued 2), some (.dequeued 3)], tbfSpent) ∧
      tbfTokens (2 ^ 54) tbfSpent = 0 ∧
      (nrsTbfReqGet false (2 ^ 54 - 2 ^ 20) tbfSpent).map Prod.fst = some (.dequeued 4) ∧
      (nrsTbfReqGet false (2 ^ 54) tbfSpent).map Prod.fst = some (.throttled 976562) := by
  refine ⟨allowedRun_of_allowedRunB _ _ _ _ (by decide), ?_⟩
  decide

/-- What the dispatch can do once the tokens are counted: take a token and
the first request, or throttle the policy until a period after the last
dequeue. The rate, the period and the depth stay. -/
theorem tbfDispatch_eq_some (h : tbfDispatch realtime now cli n c = some (r, cli')) :
    cli'.tcRpcRate = c.tcRpcRate ∧ cli'.tcNsecs = c.tcNsecs ∧ cli'.tcDepth = c.tcDepth ∧
      ((0 < n ∧ ∃ nrq, c.tcList = nrq :: cli'.tcList ∧ r = .dequeued nrq ∧ cli'.tcNtoken = n - 1 ∧
          cli'.tcCheckTime = now ∧ cli'.tcNsecsResid = c.tcNsecsResid ∧
          (cli'.tcInHeap = true ↔ c.tcInHeap = true ∧ cli'.tcList ≠ [])) ∨
        (¬ 0 < n ∧ r = .throttled (cli.tcCheckTime + cli.tcNsecs) ∧ cli'.tcList = c.tcList ∧
          cli'.tcInHeap = c.tcInHeap ∧ cli'.tcNtoken = c.tcNtoken ∧ cli'.tcCheckTime = c.tcCheckTime ∧
          cli'.tcNsecsResid = if realtime then cli.tcNsecsResid else c.tcNsecsResid)) := by
  unfold tbfDispatch at h
  dsimp only at h
  by_cases hn : 0 < n
  · rw [if_pos hn] at h
    -- the dequeue: the first request of a class with requests
    rcases hl : c.tcList with _ | ⟨nrq, rest⟩
    · rw [hl] at h
      cases h
    · rw [hl] at h
      dsimp only at h
      split_ifs at h with hrest hrt <;> simp only [Option.some.injEq, Prod.mk.injEq] at h <;>
        obtain ⟨rfl, rfl⟩ := h
      · simp [hn, hrest]
      · simp [hn, hrest]
      · simp [hn, hrest]
  · rw [if_neg hn] at h
    -- the throttle
    cases realtime with
    | true =>
      simp only [if_true, Option.some.injEq, Prod.mk.injEq] at h
      obtain ⟨rfl, rfl⟩ := h
      simp [hn]
    | false =>
      simp only [Bool.false_eq_true, if_false, Option.some.injEq, Prod.mk.injEq] at h
      obtain ⟨rfl, rfl⟩ := h
      simp [hn]

/-- The dispatch fails only on a class without requests. -/
theorem tbfDispatch_isSome (h : c.tcList ≠ []) : ∃ r cli', tbfDispatch realtime now cli n c = some (r, cli') := by
  obtain ⟨nrq, rest, hl⟩ := List.exists_cons_of_ne_nil h
  unfold tbfDispatch
  simp only [hl]
  split_ifs <;> exact ⟨_, _, rfl⟩

/-- A dequeue that returns was made on a class in the heap, at a time not
before its last dequeue, and is a count followed by a dispatch. -/
theorem nrsTbfReqGet_eq_some (h : nrsTbfReqGet realtime now cli = some (r, cli')) :
    cli.tcInHeap = true ∧ cli.tcCheckTime ≤ now ∧
      ∃ n c, tbfCount realtime now cli = some (n, c) ∧ tbfDispatch realtime now cli n c = some (r, cli') := by
  unfold nrsTbfReqGet at h
  split_ifs at h with hheap hnow
  obtain ⟨⟨n, c⟩, hc, hd⟩ := Option.bind_eq_some_iff.mp h
  exact ⟨by simpa using hheap, UInt64.not_lt.mp hnow, n, c, hc, hd⟩

/-- A dequeue on a class in the heap with requests, at a time not before its
last dequeue, fails only at the `LASSERT` on the residual. -/
theorem nrsTbfReqGet_isSome (hheap : cli.tcInHeap = true) (hnow : cli.tcCheckTime ≤ now) (hl : cli.tcList ≠ [])
    (hrt : realtime = true → cli.tcNsecsResid < cli.tcNsecs) : ∃ r cli', nrsTbfReqGet realtime now cli = some (r, cli') := by
  obtain ⟨n, c, hc⟩ : ∃ n c, tbfCount realtime now cli = some (n, c) := tbfCount_isSome hrt
  obtain ⟨resid, rfl⟩ := tbfCount_eq_some hc
  unfold nrsTbfReqGet
  rw [if_neg (by simp [hheap]), if_neg (UInt64.not_lt.mpr hnow), hc, Option.bind_some]
  exact tbfDispatch_isSome hl

end Dequeue

/-! ## Runs of a class -/

section Runs

variable {realtime : Bool} {now : UInt64} {cli cli' : NrsTbfClient} {r : TbfGet} {e : NrsTbfEvent}
  {o : Option TbfGet}

/-- A class is in the heap exactly when it has requests. -/
def TbfQueued (cli : NrsTbfClient) : Prop :=
  cli.tcInHeap = true ↔ cli.tcList ≠ []

/-- An enqueue changes the deadline, the heap flag and the list of the class
and nothing else, and leaves the class in the heap exactly when it has
requests: after a failed insert it has none and is not in the heap. -/
theorem nrsTbfReqAdd_eq_some {insertOk : Bool} {nrq : Nat} (h : nrsTbfReqAdd insertOk nrq cli = some cli') :
    (∃ deadline inHeap list, cli' = { cli with tcDeadline := deadline, tcInHeap := inHeap, tcList := list }) ∧
      TbfQueued cli' := by
  unfold nrsTbfReqAdd at h
  dsimp only at h
  split_ifs at h with hl hheap hok hheap' <;> simp only [Option.some.injEq] at h <;> subst h
  · exact ⟨⟨_, _, _, rfl⟩, by simp [TbfQueued]⟩
  · exact ⟨⟨_, _, _, rfl⟩, by simp [TbfQueued, hl, hheap]⟩
  · exact ⟨⟨_, _, _, rfl⟩, by simp [TbfQueued, hheap']⟩

theorem nrsTbfReqAdd_isSome (insertOk : Bool) (nrq : Nat) (hq : TbfQueued cli) :
    ∃ cli', nrsTbfReqAdd insertOk nrq cli = some cli' := by
  unfold nrsTbfReqAdd
  dsimp only
  by_cases hl : cli.tcList = []
  · have hheap : cli.tcInHeap = false := by simpa [TbfQueued, hl] using hq
    rw [if_pos hl, if_neg (by simp [hheap])]
    split_ifs
    · exact ⟨_, rfl⟩
    · exact ⟨_, rfl⟩
  · have hheap : cli.tcInHeap = true := hq.mpr hl
    rw [if_neg hl, if_neg (by simp [hheap])]
    exact ⟨_, rfl⟩

/-- A dequeue keeps the class in the heap exactly while it has requests, and
keeps its period and depth. -/
theorem nrsTbfReqGet_queued (hq : TbfQueued cli) (h : nrsTbfReqGet realtime now cli = some (r, cli')) :
    TbfQueued cli' ∧ cli'.tcNsecs = cli.tcNsecs ∧ cli'.tcDepth = cli.tcDepth := by
  obtain ⟨hheap, -, n, c, hc, hd⟩ := nrsTbfReqGet_eq_some h
  obtain ⟨resid, rfl⟩ := tbfCount_eq_some hc
  obtain ⟨-, hnsecs, hdepth, hcase⟩ := tbfDispatch_eq_some hd
  refine ⟨?_, hnsecs, hdepth⟩
  rcases hcase with ⟨-, nrq, -, -, -, -, -, hheap'⟩ | ⟨-, -, hl, hh, -⟩
  · unfold TbfQueued
    rw [hheap']
    simp [hheap]
  · unfold TbfQueued
    rw [hl, hh]
    exact hq

/-- Under a rule that is not realtime a dequeue keeps at most the depth: it
takes a token from a count capped at the depth, or keeps what it had. -/
theorem nrsTbfReqGet_ntoken_le (hle : cli.tcNtoken ≤ cli.tcDepth) (h : nrsTbfReqGet false now cli = some (r, cli')) :
    cli'.tcNtoken ≤ cli'.tcDepth := by
  obtain ⟨-, -, n, c, hc, hd⟩ := nrsTbfReqGet_eq_some h
  have hn := tbfCount_false_le hc
  obtain ⟨resid, rfl⟩ := tbfCount_eq_some hc
  obtain ⟨-, -, hdepth, hcase⟩ := tbfDispatch_eq_some hd
  rw [hdepth]
  rcases hcase with ⟨hpos, -, -, -, hnt, -⟩ | ⟨-, -, -, -, hnt, -⟩
  · rw [hnt]
    rw [UInt64.lt_iff_toNat_lt] at hpos
    rw [UInt64.le_iff_toNat_le] at hn ⊢
    rw [UInt64.toNat_sub_of_le _ _ (UInt64.le_iff_toNat_le.mpr (by simp only [UInt64.toNat_one]; omega))]
    simp only [UInt64.toNat_one]
    omega
  · rw [hnt]
    exact hle

/-- The invariant of a class under a rule that is not realtime. -/
structure TbfDepthInv (cli : NrsTbfClient) : Prop where
  queued : TbfQueued cli
  ntoken_le : cli.tcNtoken ≤ cli.tcDepth

theorem tbfDepthInv_new (rpcRate : UInt32) (depth now : UInt64) : TbfDepthInv (nrsTbfCliNew rpcRate depth now) where
  queued := by simp [TbfQueued, nrsTbfCliNew]
  ntoken_le := UInt64.le_refl depth

/-- A call on a class is a dequeue that reports what it did, or an
enqueue. -/
theorem nrsTbfStep_eq_some (h : nrsTbfStep realtime cli e = some (o, cli')) :
    (∃ now r, e = .get now ∧ o = some r ∧ nrsTbfReqGet realtime now cli = some (r, cli')) ∨
      (∃ insertOk nrq, e = .add insertOk nrq ∧ o = none ∧ nrsTbfReqAdd insertOk nrq cli = some cli') := by
  cases e with
  | get now =>
    obtain ⟨⟨r, c⟩, hg, heq⟩ := Option.map_eq_some_iff.mp h
    simp only [Prod.mk.injEq] at heq
    obtain ⟨rfl, rfl⟩ := heq
    exact .inl ⟨now, r, rfl, rfl, hg⟩
  | add insertOk nrq =>
    obtain ⟨c, ha, heq⟩ := Option.map_eq_some_iff.mp h
    simp only [Prod.mk.injEq] at heq
    obtain ⟨rfl, rfl⟩ := heq
    exact .inr ⟨insertOk, nrq, rfl, rfl, ha⟩

/-- A call the policy makes on a queued class returns, unless it is a
realtime dequeue whose residual is a whole period. -/
theorem nrsTbfStep_isSome (ha : NrsTbfAllowed cli e) (hq : TbfQueued cli)
    (hrt : realtime = true → cli.tcNsecsResid < cli.tcNsecs) : ∃ o cli', nrsTbfStep realtime cli e = some (o, cli') := by
  cases e with
  | get now =>
    obtain ⟨hheap, hnow⟩ := ha
    obtain ⟨r, cli', h⟩ := nrsTbfReqGet_isSome hheap hnow (hq.mp hheap) hrt
    exact ⟨some r, cli', by simp [nrsTbfStep, h]⟩
  | add insertOk nrq =>
    obtain ⟨cli', h⟩ := nrsTbfReqAdd_isSome insertOk nrq hq
    exact ⟨none, cli', by simp [nrsTbfStep, h]⟩

theorem TbfDepthInv.step (hi : TbfDepthInv cli) (h : nrsTbfStep false cli e = some (o, cli')) : TbfDepthInv cli' := by
  rcases nrsTbfStep_eq_some h with ⟨now, r, rfl, -, hg⟩ | ⟨insertOk, nrq, rfl, -, ha⟩
  · exact ⟨(nrsTbfReqGet_queued hi.queued hg).1, nrsTbfReqGet_ntoken_le hi.ntoken_le hg⟩
  · obtain ⟨⟨deadline, inHeap, list, rfl⟩, hq⟩ := nrsTbfReqAdd_eq_some ha
    exact ⟨hq, hi.ntoken_le⟩

/-- Under a rule that is not realtime, every run of the calls the policy
makes on a class with the invariant returns, no `LASSERT` firing, and keeps
the invariant: the tokens kept never exceed the depth. -/
theorem nrs_tbf_run_depth (es : List NrsTbfEvent) (cli : NrsTbfClient)
    (hrun : AllowedRun (nrsTbfStep false) NrsTbfAllowed cli es) (hi : TbfDepthInv cli) :
    ∃ os cli', run (nrsTbfStep false) cli es = some (os, cli') ∧ TbfDepthInv cli' := by
  have hstep : ∀ s e, NrsTbfAllowed s e → TbfDepthInv s →
      ∃ o s', nrsTbfStep false s e = some (o, s') ∧ True ∧ TbfDepthInv s' := by
    intro s e ha hs
    obtain ⟨o, s', h⟩ := nrsTbfStep_isSome ha hs.queued (Bool.false_ne_true.elim)
    exact ⟨o, s', h, trivial, hs.step h⟩
  obtain ⟨os, cli', h, -, hi'⟩ := run_total (nrsTbfStep false) NrsTbfAllowed TbfDepthInv (fun _ => True) hstep es cli hrun hi
  exact ⟨os, cli', h, hi'⟩

/-- The same calls as below under a rule that is not realtime. -/
theorem nrs_tbf_run_depth_three_reqs :
    ∃ os cli', run (nrsTbfStep false) (nrsTbfCliNew 1000000 3 0)
        [.add true 1, .add true 2, .add true 3, .get 400, .get 1000, .get 1000] = some (os, cli') ∧
      TbfDepthInv cli' :=
  nrs_tbf_run_depth _ _ (allowedRun_of_allowedRunB _ _ _ _ (by decide)) (tbfDepthInv_new _ _ _)

/-- A class of rate 1000000 (a period of 1000 ns) and depth 3 after
dequeues at 400 ns and 1000 ns: the residuals 400 and 600 make one period. -/
def tbfAtPeriod : NrsTbfClient :=
  { nrsTbfCliNew 1000000 3 0 with
    tcNtoken := 1, tcCheckTime := 1000, tcDeadline := 1000, tcNsecsResid := 1000, tcList := [3],
    tcInHeap := true }

theorem nrs_tbf_realtime_resid_reaches_nsecs :
    (nrsTbfCliNew 1000000 3 0).tcNsecsResid < (nrsTbfCliNew 1000000 3 0).tcNsecs ∧
      AllowedRun (nrsTbfStep true) NrsTbfAllowed (nrsTbfCliNew 1000000 3 0)
        [.add true 1, .add true 2, .add true 3, .get 400, .get 1000, .get 1000] ∧
      run (nrsTbfStep true) (nrsTbfCliNew 1000000 3 0) [.add true 1, .add true 2, .add true 3, .get 400, .get 1000] =
        some ([none, none, none, some (.dequeued 1), some (.dequeued 2)], tbfAtPeriod) ∧
      tbfAtPeriod.tcNsecsResid = tbfAtPeriod.tcNsecs ∧
      nrsTbfReqGet true 1000 tbfAtPeriod = none := by
  refine ⟨by decide, allowedRun_of_allowedRunB _ _ _ _ (by decide), ?_⟩
  decide

end Runs

end Lustre.Ptlrpc
