import Mathlib

/-! # The token bucket filter of the NRS

`lustre/ptlrpc/nrs_tbf.c`. The TBF policy sorts requests into classes
(`struct nrs_tbf_client`) by the rule they match. A rule may name jobids
by patterns in which `*` stands for any run of characters, and
`cfs_match_wildcard` decides whether a jobid matches one. Each class has a
bucket filled at `tc_rpc_rate` tokens a second up to `tc_depth` tokens, and
a request of the class is dequeued (`nrs_tbf_req_get`) only when a token is
left. A rule with `NTRS_REALTIME` has no depth: the tokens of an idle class
pile up, and the nanoseconds that are not yet worth a token are carried over
in `tc_nsecs_resid`.

Strings are lists of characters without their NUL. `nrs_tbf_req_get` is
the call with `peek` false on a policy that is not throttled (otherwise it
returns at once), on the class at the root of the heap of classes, with the
clock's value `now`. The heap, the timer, the jobid list's allocations and
the statistics are left out, and so is the retry on the new root after a
realtime class went back into the heap: the class itself is left the same
either way. The counters are the `__u64` and `u32` of the source and wrap as
they do. An `LASSERT` that fails is `none`.
-/

namespace Lustre.Ptlrpc

/-! ## Jobid patterns -/

/-- `cfs_match_wildcard(pattern, content)`. Each turn of its `while` loop
makes the two tests of the entry again on what is left of both strings, so
the loop is the call on the two tails. -/
def cfsMatchWildcard : List Char → List Char → Bool
  | [], [] => true
  | [], _ :: _ => false
  -- a star with more pattern after it, at the end of the content
  | '*' :: _ :: _, [] => false
  -- a star here is the last character: the first call matches two empty
  -- strings, and the second, past the end of the content, is not made
  | a :: p, [] => if a = '*' then cfsMatchWildcard p [] else false
  | a :: p, b :: c =>
    if a = b then cfsMatchWildcard p c
    else if a = '*' then cfsMatchWildcard p (b :: c) || cfsMatchWildcard (a :: p) c
    else false
termination_by p c => p.length + c.length

/-- The clauses of `cfsMatchWildcard` on every shape of its arguments,
unfolded once; the lemmas below are read off them. -/
theorem cfsMatchWildcard_clauses (a b : Char) (p c : List Char) :
    cfsMatchWildcard [] [] = true ∧ cfsMatchWildcard [] (b :: c) = false ∧
      cfsMatchWildcard (a :: p) [] = (if a = '*' then p.isEmpty else false) ∧
      cfsMatchWildcard (a :: p) (b :: c) =
        if a = b then cfsMatchWildcard p c
        else if a = '*' then cfsMatchWildcard p (b :: c) || cfsMatchWildcard (a :: p) c
        else false := by
  have hnil : cfsMatchWildcard [] [] = true := by rw [cfsMatchWildcard]
  refine ⟨hnil, by rw [cfsMatchWildcard], ?_, by rw [cfsMatchWildcard]⟩
  -- against an exhausted content a star matches only as the last character
  -- of the pattern; the clause of a lone star carries the side condition
  -- that no other pattern follows it
  by_cases ha : a = '*'
  · rw [if_pos ha, ha]
    cases p with
    | nil => rw [cfsMatchWildcard] <;> simp [hnil]
    | cons a p => rw [cfsMatchWildcard]; rfl
  · rw [if_neg ha]
    rw [cfsMatchWildcard] <;> simp [ha]

@[simp] theorem cfsMatchWildcard_nil_nil : cfsMatchWildcard [] [] = true :=
  (cfsMatchWildcard_clauses '*' '*' [] []).1

@[simp] theorem cfsMatchWildcard_nil_cons (b : Char) (c : List Char) :
    cfsMatchWildcard [] (b :: c) = false :=
  (cfsMatchWildcard_clauses b b [] c).2.1

/-- Against an exhausted content a star matches only as the last character
of the pattern. -/
@[simp] theorem cfsMatchWildcard_star_nil (p : List Char) : cfsMatchWildcard ('*' :: p) [] = p.isEmpty := by
  rw [(cfsMatchWildcard_clauses '*' '*' p []).2.2.1, if_pos rfl]

/-- Equal characters are consumed on both sides, a star included. -/
@[simp] theorem cfsMatchWildcard_cons_self (a : Char) (p c : List Char) :
    cfsMatchWildcard (a :: p) (a :: c) = cfsMatchWildcard p c := by
  rw [(cfsMatchWildcard_clauses a a p c).2.2.2, if_pos rfl]

theorem cfsMatchWildcard_lit_cons {a b : Char} (hab : a ≠ b) (ha : a ≠ '*') (p c : List Char) :
    cfsMatchWildcard (a :: p) (b :: c) = false := by
  rw [(cfsMatchWildcard_clauses a b p c).2.2.2, if_neg hab, if_neg ha]

/-- `NRS_TBF_MATCH_FULL`. -/
def nrsTbfMatchFull : UInt32 := 0x1

/-- `NRS_TBF_MATCH_WILDCARD`. -/
def nrsTbfMatchWildcard : UInt32 := 0x2

/-- `struct nrs_tbf_jobid`: a jobid of a rule, and how it is matched. -/
structure NrsTbfJobid where
  tjId : List Char
  tjMatchFlag : UInt32
  deriving DecidableEq, Repr

/-- `nrs_tbf_jobid_list_add(id, jobid_list)`: a word of the rule is matched
as a pattern when it holds a `*`, and as a whole string otherwise. -/
def nrsTbfJobidListAdd (id : List Char) (jobidList : List NrsTbfJobid) : List NrsTbfJobid :=
  jobidList ++ [{ tjId := id, tjMatchFlag := if '*' ∈ id then nrsTbfMatchWildcard else nrsTbfMatchFull }]

/-- `nrs_tbf_jobid_match(jobid, id)`. -/
def nrsTbfJobidMatch (jobid : NrsTbfJobid) (id : List Char) : Bool :=
  if jobid.tjMatchFlag = nrsTbfMatchFull then jobid.tjId == id
  else if jobid.tjMatchFlag = nrsTbfMatchWildcard then cfsMatchWildcard jobid.tjId id
  else false

/-- `nrs_tbf_jobid_list_match(jobid_list, id)`. -/
def nrsTbfJobidListMatch (jobidList : List NrsTbfJobid) (id : List Char) : Bool :=
  jobidList.any fun jobid => nrsTbfJobidMatch jobid id

/-! ## The bucket of a class -/

/-- `NSEC_PER_SEC`. -/
def nsecPerSec : UInt64 := 1000000000

/-- The fields of `struct nrs_tbf_client` that the dequeue and the enqueue
use; `tcList` is `tc_list`, the requests of the class in order. -/
structure NrsTbfClient where
  tcRpcRate : UInt32
  tcNsecs : UInt64
  tcNtoken : UInt64
  tcDepth : UInt64
  tcCheckTime : UInt64
  tcDeadline : UInt64
  tcNsecsResid : UInt64
  tcList : List Nat
  tcInHeap : Bool
  deriving DecidableEq, Repr

/-- A class as `nrs_tbf_cli_reset_value` sets it up under a rule of rate
`rpcRate` (`tr_nsecs_per_rpc` is `NSEC_PER_SEC / tr_rpc_rate`) and depth
`depth` at time `now`, on the class that `nrs_tbf_cli_init` zeroes first: a
full bucket, no residual, no request. -/
def nrsTbfCliNew (rpcRate : UInt32) (depth now : UInt64) : NrsTbfClient where
  tcRpcRate := rpcRate
  tcNsecs := nsecPerSec / rpcRate.toUInt64
  tcNtoken := depth
  tcDepth := depth
  tcCheckTime := now
  tcDeadline := 0
  tcNsecsResid := 0
  tcList := []
  tcInHeap := false

/-- What `nrs_tbf_req_get` does with the class: dequeue its first request,
or throttle the policy until `deadline`. -/
inductive TbfGet where
  | dequeued (nrq : Nat)
  | throttled (deadline : UInt64)
  deriving DecidableEq, Repr

/-- The tokens at `now` before the depth or the carry: what the time since
`tc_check_time` is worth at the class's rate, on top of what the class
kept. -/
def tbfTokens (now : UInt64) (cli : NrsTbfClient) : UInt64 :=
  (now - cli.tcCheckTime) * cli.tcRpcRate.toUInt64 / nsecPerSec + cli.tcNtoken

/-- The `NTRS_REALTIME` branch of `nrs_tbf_req_get`: the nanoseconds of
`passed` beyond whole periods are added to `tc_nsecs_resid`, and a sum
above one period is worth one more token. -/
def tbfRealtimeCarry (passed ntoken : UInt64) (cli : NrsTbfClient) : Option (UInt64 × NrsTbfClient) :=
  if ¬ cli.tcNsecsResid < cli.tcNsecs then none
  else
    let resid := cli.tcNsecsResid + passed % cli.tcNsecs
    if resid > cli.tcNsecs then some (ntoken + 1, { cli with tcNsecsResid := resid - cli.tcNsecs })
    else some (ntoken, { cli with tcNsecsResid := resid })

/-- How many tokens the class has at `now`: the refill capped at the depth,
or for a realtime class the refill and the carry of the residual. -/
def tbfCount (realtime : Bool) (now : UInt64) (cli : NrsTbfClient) : Option (UInt64 × NrsTbfClient) :=
  let ntoken := tbfTokens now cli
  if realtime then tbfRealtimeCarry (now - cli.tcCheckTime) ntoken cli
  else some (if ntoken > cli.tcDepth then cli.tcDepth else ntoken, cli)

/-- The rest of `nrs_tbf_req_get` once the tokens are counted: `cli` is the
class at the call and `cli'` the class after the count, with `ntoken`
tokens. -/
def tbfDispatch (realtime : Bool) (now : UInt64) (cli : NrsTbfClient) (ntoken : UInt64)
    (cli' : NrsTbfClient) : Option (TbfGet × NrsTbfClient) :=
  let deadline := cli.tcCheckTime + cli.tcNsecs
  if ntoken > 0 then
    match cli'.tcList with
    -- `list_entry` of an empty `tc_list`: a class in the heap has requests
    | [] => none
    | nrq :: rest =>
      let cli' := { cli' with tcNtoken := ntoken - 1, tcCheckTime := now, tcList := rest }
      if rest = [] then some (.dequeued nrq, { cli' with tcInHeap := false })
      else if realtime then some (.dequeued nrq, cli')
      else some (.dequeued nrq, { cli' with tcDeadline := now + cli.tcNsecs })
  -- no token: a realtime class gives back the residual it added
  else if realtime then
    some (.throttled deadline, { cli' with tcDeadline := deadline, tcNsecsResid := cli.tcNsecsResid })
  else some (.throttled deadline, cli')

/-- `nrs_tbf_req_get(policy, false, force)` on the class `cli` at the root
of the heap, at time `now`; `realtime` is `rule->tr_flags & NTRS_REALTIME`. -/
def nrsTbfReqGet (realtime : Bool) (now : UInt64) (cli : NrsTbfClient) : Option (TbfGet × NrsTbfClient) :=
  if ¬ cli.tcInHeap then none
  else if now < cli.tcCheckTime then none
  else (tbfCount realtime now cli).bind fun counted => tbfDispatch realtime now cli counted.1 counted.2

/-- `nrs_tbf_req_add(policy, nrq)` for a request of the class `cli`;
`insertOk` is whether `binheap_insert` succeeds. The deadline of a class
with no request is set before the insert, so also when it fails. -/
def nrsTbfReqAdd (insertOk : Bool) (nrq : Nat) (cli : NrsTbfClient) : Option NrsTbfClient :=
  if cli.tcList = [] then
    if cli.tcInHeap then none
    else
      let cli := { cli with tcDeadline := cli.tcCheckTime + cli.tcNsecs }
      if insertOk then some { cli with tcInHeap := true, tcList := [nrq] } else some cli
  else if ¬ cli.tcInHeap then none
  else some { cli with tcList := cli.tcList ++ [nrq] }

/-! ## Runs of one class -/

/-- The calls on one class: a dequeue at a time of the clock, or an
enqueue. -/
inductive NrsTbfEvent where
  | get (now : UInt64)
  | add (insertOk : Bool) (nrq : Nat)
  deriving DecidableEq, Repr

/-- One call on a class under a rule that is realtime or not; a dequeue
reports what it did. -/
def nrsTbfStep (realtime : Bool) (cli : NrsTbfClient) : NrsTbfEvent → Option (Option TbfGet × NrsTbfClient)
  | .get now => (nrsTbfReqGet realtime now cli).map fun (r, cli) => (some r, cli)
  | .add insertOk nrq => (nrsTbfReqAdd insertOk nrq cli).map fun cli => (none, cli)

/-- The calls the policy makes: it dequeues only from a class in the heap,
and the clock does not go back past the last dequeue. -/
def NrsTbfAllowed (cli : NrsTbfClient) : NrsTbfEvent → Prop
  | .get now => cli.tcInHeap = true ∧ cli.tcCheckTime ≤ now
  | .add _ _ => True

instance (cli : NrsTbfClient) : (e : NrsTbfEvent) → Decidable (NrsTbfAllowed cli e)
  | .get now => inferInstanceAs (Decidable (cli.tcInHeap = true ∧ cli.tcCheckTime ≤ now))
  | .add _ _ => inferInstanceAs (Decidable True)

end Lustre.Ptlrpc
