import Mathlib
import Lustre.Lnet.Router
import Lustre.Lib.Waiters
import Lustre.Lib.Run

/-! # The router's credits balance over every run

Each buffer pool keeps its counter in step with its lists: as many free
buffers as positive credits and as many blocked messages as negative ones,
never more credits than buffers asked for, and blocked messages served
from the front of `rbp_msgs` in the order they blocked. Each peer NI's
credits are what it was configured with less the messages that hold one.
The invariant `RtrInv` says so; each piece of the two calls keeps it
(`takePeerRtrCredit_spec`, `recvRtrBuf_spec`, `returnRtrCredit_spec`,
`returnPeerRtrCredit_spec`), so every operation of a run does and none trips
an `LASSERT`.

The peer credits are counted per NI but the messages that wait for one
queue per peer: a credit given back by one NI lets the first message of the
peer's queue go on, which may have taken its credit from another NI. So an
NI can have more messages going on with its credits than it was configured
with; what the queue keeps to is the sum of the debts of the peer's NIs
(`RtrInv.debt`).
-/

namespace Lustre.Lnet

variable {Msg Ni Peer Pool Buf : Type}

namespace LnetMsg

/-- Neither credit nor buffer: a message yet to arrive, or done. -/
def Idle (x : LnetMsg Buf) : Prop := x.msgPeerrtrcredit = false ∧ x.msgRtrcredit = false ∧ x.msgKiov = none

/-- A peer router credit only: on the peer's queue, or on the way to the
buffer credit. -/
def PeerOnly (x : LnetMsg Buf) : Prop := x.msgPeerrtrcredit = true ∧ x.msgRtrcredit = false ∧ x.msgKiov = none

/-- Both credits and no buffer: blocked on the pool. -/
def Blocked (x : LnetMsg Buf) : Prop := x.msgPeerrtrcredit = true ∧ x.msgRtrcredit = true ∧ x.msgKiov = none

/-- Both credits and a buffer. -/
def Holding (x : LnetMsg Buf) : Prop := x.msgPeerrtrcredit = true ∧ x.msgRtrcredit = true ∧ x.msgKiov.isSome

end LnetMsg

/-- A message that holds a buffer is none of those without one. -/
theorem ne_of_holding {msg : Msg → LnetMsg Buf} {m m' : Msg} (hhold : (msg m).Holding)
    (hk : (msg m').msgKiov = none) : m ≠ m' := by
  rintro rfl
  have hsome := hhold.2.2
  rw [hk] at hsome
  cases hsome

section Invariant

variable [DecidableEq Msg] [DecidableEq Ni] [DecidableEq Peer] [DecidableEq Pool] [Fintype Msg] [Fintype Ni]
  (topo : LnetTopo Msg Ni Peer Pool) (conf : Ni → Int)

/-- The messages holding a peer router credit of `lpni`. -/
def rtrHolders (msg : Msg → LnetMsg Buf) (lpni : Ni) : Nat :=
  (Finset.univ.filter fun m => topo.msgRxpeer m = lpni ∧ (msg m).msgPeerrtrcredit = true).card

/-- What the NIs of peer `lp` owe: the sum of their negative router
credits. -/
def peerDebt (credits : Ni → Int) (lp : Peer) : Nat :=
  ∑ n ∈ Finset.univ.filter (fun n => topo.lpnPeer n = lp), (-credits n).toNat

/-- A buffer pool whose messages are given by `msg`. -/
structure PoolInv (msg : Msg → LnetMsg Buf) (p : Pool) (rbp : LnetRtrbufpool Msg Buf) : Prop where
  bufs : (rbp.rbpBufs.length : Int) = max 0 rbp.rbpCredits
  msgs : (rbp.rbpMsgs.length : Int) = max 0 (-rbp.rbpCredits)
  credits_le : rbp.rbpCredits ≤ rbp.rbpReqNbuffers
  nodup : rbp.rbpMsgs.Nodup
  blocked : ∀ m ∈ rbp.rbpMsgs, topo.msg2bufpool m = p ∧ (msg m).Blocked

/-- The peers' queues and the peer NIs' credits. -/
structure PeerInv (s : LnetRouter Msg Ni Peer Pool Buf) : Prop where
  nodup : ∀ lp, (s.lpRtrq lp).Nodup
  queued : ∀ lp, ∀ m ∈ s.lpRtrq lp, topo.lpnPeer (topo.msgRxpeer m) = lp ∧ (s.msg m).PeerOnly
  credits : ∀ n, s.lpniRtrcredits n + rtrHolders topo s.msg n = conf n
  debt : ∀ lp, (s.lpRtrq lp).length ≤ peerDebt topo s.lpniRtrcredits lp

/-- The router's invariant: every pool's, and the peers'. -/
structure RtrInv (s : LnetRouter Msg Ni Peer Pool Buf) : Prop where
  pools : ∀ p, PoolInv topo s.msg p (s.rtrpools p)
  peers : PeerInv topo conf s

omit [DecidableEq Peer] [DecidableEq Pool] [Fintype Ni] in
/-- A message whose peer credit stays counts for the same NI. -/
theorem rtrHolders_update_of_peer {msg : Msg → LnetMsg Buf} {m : Msg} {x : LnetMsg Buf}
    (hx : x.msgPeerrtrcredit = (msg m).msgPeerrtrcredit) (n : Ni) :
    rtrHolders topo (Function.update msg m x) n = rtrHolders topo msg n := by
  unfold rtrHolders
  congr 1
  apply Finset.filter_congr
  intro m' _
  by_cases hm' : m' = m
  · rw [hm', Function.update_self, hx]
  · rw [Function.update_of_ne hm']

omit [DecidableEq Peer] [DecidableEq Pool] [Fintype Ni] in
/-- A message that takes (`x` with the credit) or gives back a peer
credit counts once more, or once less, for its NI only. -/
theorem rtrHolders_update (msg : Msg → LnetMsg Buf) (m : Msg) (x : LnetMsg Buf) (n : Ni) :
    rtrHolders topo (Function.update msg m x) n +
        (if topo.msgRxpeer m = n ∧ (msg m).msgPeerrtrcredit = true then 1 else 0) =
      rtrHolders topo msg n + (if topo.msgRxpeer m = n ∧ x.msgPeerrtrcredit = true then 1 else 0) := by
  unfold rtrHolders
  have h := Waiters.card_filter_add_of_eq_off
    (p := fun m' => topo.msgRxpeer m' = n ∧ (msg m').msgPeerrtrcredit = true)
    (q := fun m' => topo.msgRxpeer m' = n ∧ (Function.update msg m x m').msgPeerrtrcredit = true) m
    (fun m' hm' => by rw [Function.update_of_ne hm'])
  simp only [Function.update_self] at h
  exact h

omit [DecidableEq Msg] [DecidableEq Pool] [Fintype Msg] in
/-- The debt of a peer after one of its NIs' credits changed. -/
theorem peerDebt_update (credits : Ni → Int) (n : Ni) (v : Int) (lp : Peer) :
    peerDebt topo (Function.update credits n v) lp + (if topo.lpnPeer n = lp then (-credits n).toNat else 0) =
      peerDebt topo credits lp + (if topo.lpnPeer n = lp then (-v).toNat else 0) := by
  unfold peerDebt
  have h := Waiters.sum_add_of_eq_off (s := Finset.univ.filter fun n => topo.lpnPeer n = lp)
    (f := fun n => (-credits n).toNat) (g := fun n' => (-Function.update credits n v n').toNat) n
    (fun n' _ hn' => by rw [Function.update_of_ne hn'])
  simp only [Finset.mem_filter, Finset.mem_univ, true_and, Function.update_self] at h
  exact h

variable {topo conf}

omit [DecidableEq Ni] [DecidableEq Peer] [DecidableEq Pool] [Fintype Msg] [Fintype Ni] in
/-- A pool does not see a message that is not blocked on it change. -/
theorem PoolInv.update_msg {msg : Msg → LnetMsg Buf} {p : Pool} {rbp : LnetRtrbufpool Msg Buf} (h : PoolInv topo msg p rbp)
    {m : Msg} (hm : m ∉ rbp.rbpMsgs) (x : LnetMsg Buf) : PoolInv topo (Function.update msg m x) p rbp := by
  refine ⟨h.bufs, h.msgs, h.credits_le, h.nodup, fun m' hm' => ?_⟩
  have hne : m' ≠ m := fun heq => hm (heq ▸ hm')
  rw [Function.update_of_ne hne]
  exact h.blocked m' hm'

omit [DecidableEq Pool] in
/-- The peers do not see a message change that keeps its peer credit and is
not on a peer's queue. -/
theorem PeerInv.update_msg {s s' : LnetRouter Msg Ni Peer Pool Buf} (h : PeerInv topo conf s) {m : Msg}
    (hq : ∀ lp, m ∉ s.lpRtrq lp) {x : LnetMsg Buf} (hx : x.msgPeerrtrcredit = (s.msg m).msgPeerrtrcredit)
    (hmsg : s'.msg = Function.update s.msg m x) (hrtrq : s'.lpRtrq = s.lpRtrq)
    (hcredits : s'.lpniRtrcredits = s.lpniRtrcredits) : PeerInv topo conf s' := by
  refine ⟨fun lp => ?_, fun lp m' hm' => ?_, fun n => ?_, fun lp => ?_⟩
  · rw [hrtrq]
    exact h.nodup lp
  · rw [hrtrq] at hm'
    have hne : m' ≠ m := fun heq => hq lp (heq ▸ hm')
    rw [hmsg, Function.update_of_ne hne]
    exact h.queued lp m' hm'
  · rw [hmsg, hcredits, rtrHolders_update_of_peer topo hx]
    exact h.credits n
  · rw [hrtrq, hcredits]
    exact h.debt lp

section Take

variable {s s' : LnetRouter Msg Ni Peer Pool Buf} {m : Msg} {x : LnetMsg Buf}

omit [DecidableEq Pool] in
/-- A message taking a peer credit counts once more for its NI, whose
credits go down by one. -/
theorem PeerInv.credits_take (h : PeerInv topo conf s) (hpeer : (s.msg m).msgPeerrtrcredit = false)
    (hx : x.msgPeerrtrcredit = true) (hmsg : s'.msg = Function.update s.msg m x)
    (hcredits : s'.lpniRtrcredits =
      Function.update s.lpniRtrcredits (topo.msgRxpeer m) (s.lpniRtrcredits (topo.msgRxpeer m) - 1)) (n : Ni) :
    s'.lpniRtrcredits n + rtrHolders topo s'.msg n = conf n := by
  have hcount := rtrHolders_update topo s.msg m x n
  rw [hpeer, hx] at hcount
  have hn := h.credits n
  rw [hmsg, hcredits]
  by_cases hmn : topo.msgRxpeer m = n
  · subst hmn
    simp only [and_true, Bool.false_eq_true, and_false, if_false, if_true, Function.update_self] at hcount ⊢
    omega
  · simp only [hmn, false_and, if_false] at hcount
    rw [Function.update_of_ne (Ne.symm hmn), Nat.add_zero, Nat.add_zero] at *
    rw [hcount]
    exact hn

omit [DecidableEq Pool] in
/-- A message that takes a peer credit from an NI in debt waits at the
tail of its peer's queue. -/
theorem PeerInv.take_wait (h : PeerInv topo conf s) (hq : ∀ lp, m ∉ s.lpRtrq lp)
    (hpeer : (s.msg m).msgPeerrtrcredit = false) (hx : x.PeerOnly)
    (hdebt : s.lpniRtrcredits (topo.msgRxpeer m) - 1 < 0) (hmsg : s'.msg = Function.update s.msg m x)
    (hcredits : s'.lpniRtrcredits =
      Function.update s.lpniRtrcredits (topo.msgRxpeer m) (s.lpniRtrcredits (topo.msgRxpeer m) - 1))
    (hrtrq : s'.lpRtrq = Function.update s.lpRtrq (topo.lpnPeer (topo.msgRxpeer m))
      (s.lpRtrq (topo.lpnPeer (topo.msgRxpeer m)) ++ [m])) :
    PeerInv topo conf s' := by
  refine ⟨fun lp => ?_, fun lp m' hm' => ?_, h.credits_take hpeer hx.1 hmsg hcredits, fun lp => ?_⟩
  · rw [hrtrq]
    by_cases hlp : lp = topo.lpnPeer (topo.msgRxpeer m)
    · subst hlp
      rw [Function.update_self, List.nodup_append]
      exact ⟨h.nodup _, List.nodup_singleton m, fun a ha b hb hab => hq _ (by
        rw [List.mem_singleton] at hb
        exact hb ▸ hab ▸ ha)⟩
    · rw [Function.update_of_ne hlp]
      exact h.nodup lp
  · rw [hrtrq] at hm'
    by_cases hm'm : m' = m
    · -- the new tail
      subst hm'm
      have hlp : lp = topo.lpnPeer (topo.msgRxpeer m') := by
        by_contra hlp
        rw [Function.update_of_ne hlp] at hm'
        exact hq lp hm'
      rw [hmsg, Function.update_self]
      exact ⟨hlp.symm, hx⟩
    · have hold : m' ∈ s.lpRtrq lp := by
        by_cases hlp : lp = topo.lpnPeer (topo.msgRxpeer m)
        · subst hlp
          rw [Function.update_self, List.mem_append, List.mem_singleton] at hm'
          exact hm'.resolve_right hm'm
        · rwa [Function.update_of_ne hlp] at hm'
      rw [hmsg, Function.update_of_ne hm'm]
      exact h.queued lp m' hold
  · -- the NI's debt grew by the message that now waits
    have hd := peerDebt_update topo s.lpniRtrcredits (topo.msgRxpeer m)
      (s.lpniRtrcredits (topo.msgRxpeer m) - 1) lp
    have hlen := h.debt lp
    rw [hrtrq, hcredits]
    by_cases hlp : lp = topo.lpnPeer (topo.msgRxpeer m)
    · subst hlp
      rw [if_pos rfl, if_pos rfl] at hd
      rw [Function.update_self, List.length_append, List.length_singleton]
      omega
    · rw [if_neg (Ne.symm hlp), if_neg (Ne.symm hlp)] at hd
      rw [Function.update_of_ne hlp]
      omega

omit [DecidableEq Pool] in
/-- A message that takes a peer credit from an NI with credits to spare
goes on. -/
theorem PeerInv.take_go (h : PeerInv topo conf s) (hq : ∀ lp, m ∉ s.lpRtrq lp)
    (hpeer : (s.msg m).msgPeerrtrcredit = false) (hx : x.msgPeerrtrcredit = true)
    (hspare : ¬ s.lpniRtrcredits (topo.msgRxpeer m) - 1 < 0) (hmsg : s'.msg = Function.update s.msg m x)
    (hcredits : s'.lpniRtrcredits =
      Function.update s.lpniRtrcredits (topo.msgRxpeer m) (s.lpniRtrcredits (topo.msgRxpeer m) - 1))
    (hrtrq : s'.lpRtrq = s.lpRtrq) :
    PeerInv topo conf s' := by
  refine ⟨fun lp => hrtrq ▸ h.nodup lp, fun lp m' hm' => ?_, h.credits_take hpeer hx hmsg hcredits, fun lp => ?_⟩
  · rw [hrtrq] at hm'
    have hne : m' ≠ m := fun heq => hq lp (heq ▸ hm')
    rw [hmsg, Function.update_of_ne hne]
    exact h.queued lp m' hm'
  · -- no debt before or after
    have hd := peerDebt_update topo s.lpniRtrcredits (topo.msgRxpeer m)
      (s.lpniRtrcredits (topo.msgRxpeer m) - 1) lp
    have hzero : (-s.lpniRtrcredits (topo.msgRxpeer m)).toNat = 0 := by omega
    have hzero' : (-(s.lpniRtrcredits (topo.msgRxpeer m) - 1)).toNat = 0 := by omega
    simp only [hzero, hzero', ite_self] at hd
    rw [hrtrq, hcredits]
    have := h.debt lp
    omega

omit [DecidableEq Pool] in
/-- A message that gives its peer credit back no longer counts for its NI,
whose credits go up by one; the first message of the peer's queue leaves
it. -/
theorem PeerInv.give (h : PeerInv topo conf s) (hq : ∀ lp, m ∉ s.lpRtrq lp)
    (hpeer : (s.msg m).msgPeerrtrcredit = true) (hx : x.msgPeerrtrcredit = false)
    (hmsg : s'.msg = Function.update s.msg m x)
    (hcredits : s'.lpniRtrcredits =
      Function.update s.lpniRtrcredits (topo.msgRxpeer m) (s.lpniRtrcredits (topo.msgRxpeer m) + 1))
    (hrtrq : s'.lpRtrq = Function.update s.lpRtrq (topo.lpnPeer (topo.msgRxpeer m))
      (s.lpRtrq (topo.lpnPeer (topo.msgRxpeer m))).tail) :
    PeerInv topo conf s' := by
  -- what is on the queues after was on them before
  have hmem : ∀ lp m', m' ∈ s'.lpRtrq lp → m' ∈ s.lpRtrq lp := fun lp m' hm' => by
    rw [hrtrq] at hm'
    by_cases hlp : lp = topo.lpnPeer (topo.msgRxpeer m)
    · subst hlp
      rw [Function.update_self] at hm'
      exact List.mem_of_mem_tail hm'
    · rwa [Function.update_of_ne hlp] at hm'
  refine ⟨fun lp => ?_, fun lp m' hm' => ?_, fun n => ?_, fun lp => ?_⟩
  · rw [hrtrq]
    by_cases hlp : lp = topo.lpnPeer (topo.msgRxpeer m)
    · subst hlp
      rw [Function.update_self]
      exact (h.nodup _).sublist (List.tail_sublist _)
    · rw [Function.update_of_ne hlp]
      exact h.nodup lp
  · have hold := hmem lp m' hm'
    have hne : m' ≠ m := fun heq => hq lp (heq ▸ hold)
    rw [hmsg, Function.update_of_ne hne]
    exact h.queued lp m' hold
  · have hcount := rtrHolders_update topo s.msg m x n
    rw [hpeer, hx] at hcount
    have hn := h.credits n
    rw [hmsg, hcredits]
    by_cases hmn : topo.msgRxpeer m = n
    · subst hmn
      simp only [and_true, Bool.false_eq_true, and_false, if_false, if_true, Function.update_self] at hcount ⊢
      omega
    · simp only [hmn, false_and, if_false] at hcount
      rw [Function.update_of_ne (Ne.symm hmn), Nat.add_zero, Nat.add_zero] at *
      rw [hcount]
      exact hn
  · -- the NI's debt fell by at most the message that left the queue
    have hd := peerDebt_update topo s.lpniRtrcredits (topo.msgRxpeer m)
      (s.lpniRtrcredits (topo.msgRxpeer m) + 1) lp
    have hlen := h.debt lp
    rw [hrtrq, hcredits]
    by_cases hlp : lp = topo.lpnPeer (topo.msgRxpeer m)
    · subst hlp
      rw [if_pos rfl, if_pos rfl] at hd
      rw [Function.update_self, List.length_tail]
      omega
    · rw [if_neg (Ne.symm hlp), if_neg (Ne.symm hlp)] at hd
      rw [Function.update_of_ne hlp]
      omega

end Take

section Pool

variable {msg : Msg → LnetMsg Buf} {p : Pool} {rbp : LnetRtrbufpool Msg Buf}

omit [DecidableEq Ni] [DecidableEq Peer] [DecidableEq Pool] [Fintype Msg] [Fintype Ni] in
/-- A message with a buffer credit from a pool in debt waits at the tail of
`rbp_msgs`. -/
theorem PoolInv.take_wait (h : PoolInv topo msg p rbp) {m : Msg} (hm : m ∉ rbp.rbpMsgs) (hp : topo.msg2bufpool m = p)
    {x : LnetMsg Buf} (hx : x.Blocked) (hdebt : rbp.rbpCredits - 1 < 0) {rbp' : LnetRtrbufpool Msg Buf}
    (hbufs : rbp'.rbpBufs = rbp.rbpBufs) (hmsgs : rbp'.rbpMsgs = rbp.rbpMsgs ++ [m])
    (hcredits : rbp'.rbpCredits = rbp.rbpCredits - 1) (hreq : rbp'.rbpReqNbuffers = rbp.rbpReqNbuffers) :
    PoolInv topo (Function.update msg m x) p rbp' := by
  have hb := h.bufs
  have hl := h.msgs
  have hle := h.credits_le
  refine ⟨?_, ?_, ?_, ?_, fun m' hm' => ?_⟩
  · rw [hbufs, hcredits]
    omega
  · rw [hmsgs, hcredits, List.length_append, List.length_singleton]
    omega
  · rw [hcredits, hreq]
    omega
  · rw [hmsgs, List.nodup_append]
    exact ⟨h.nodup, List.nodup_singleton m, fun a ha b hb hab => hm (by
      rw [List.mem_singleton] at hb
      exact hb ▸ hab ▸ ha)⟩
  · rw [hmsgs, List.mem_append, List.mem_singleton] at hm'
    by_cases hm'm : m' = m
    · subst hm'm
      rw [Function.update_self]
      exact ⟨hp, hx⟩
    · rw [Function.update_of_ne hm'm]
      exact h.blocked m' (hm'.resolve_right hm'm)

omit [DecidableEq Ni] [DecidableEq Peer] [DecidableEq Pool] [Fintype Msg] [Fintype Ni] in
/-- A message with a buffer credit from a pool with credits to spare takes
the first buffer. -/
theorem PoolInv.take_buf (h : PoolInv topo msg p rbp) {m : Msg} (hm : m ∉ rbp.rbpMsgs) (x : LnetMsg Buf)
    {rb : Buf} {bufs : List Buf} (hrb : rbp.rbpBufs = rb :: bufs) {rbp' : LnetRtrbufpool Msg Buf}
    (hbufs : rbp'.rbpBufs = bufs) (hmsgs : rbp'.rbpMsgs = rbp.rbpMsgs)
    (hcredits : rbp'.rbpCredits = rbp.rbpCredits - 1) (hreq : rbp'.rbpReqNbuffers = rbp.rbpReqNbuffers) :
    PoolInv topo (Function.update msg m x) p rbp' := by
  have hb := h.bufs
  have hl := h.msgs
  have hle := h.credits_le
  rw [hrb, List.length_cons] at hb
  refine ⟨?_, ?_, ?_, hmsgs ▸ h.nodup, fun m' hm' => ?_⟩
  · rw [hbufs, hcredits]
    omega
  · rw [hmsgs, hcredits]
    omega
  · rw [hcredits, hreq]
    omega
  · rw [hmsgs] at hm'
    have hne : m' ≠ m := fun heq => hm (heq ▸ hm')
    rw [Function.update_of_ne hne]
    exact h.blocked m' hm'

omit [DecidableEq Ni] [DecidableEq Peer] [DecidableEq Pool] [Fintype Msg] [Fintype Ni] in
/-- A buffer given back to a pool with no message blocked on it. -/
theorem PoolInv.give_back (h : PoolInv topo msg p rbp) {m : Msg} (hm : m ∉ rbp.rbpMsgs) (x : LnetMsg Buf)
    (hfree : 0 ≤ rbp.rbpCredits) (rb : Buf) {rbp' : LnetRtrbufpool Msg Buf}
    (hbufs : rbp'.rbpBufs = rb :: rbp.rbpBufs) (hmsgs : rbp'.rbpMsgs = rbp.rbpMsgs)
    (hcredits : rbp'.rbpCredits = rbp.rbpCredits + 1) (hreq : rbp'.rbpReqNbuffers = rbp.rbpReqNbuffers)
    (hlt : rbp.rbpCredits < rbp.rbpReqNbuffers) :
    PoolInv topo (Function.update msg m x) p rbp' := by
  have hb := h.bufs
  have hl := h.msgs
  refine ⟨?_, ?_, ?_, hmsgs ▸ h.nodup, fun m' hm' => ?_⟩
  · rw [hbufs, hcredits, List.length_cons]
    omega
  · rw [hmsgs, hcredits]
    omega
  · rw [hcredits, hreq]
    omega
  · rw [hmsgs] at hm'
    have hne : m' ≠ m := fun heq => hm (heq ▸ hm')
    rw [Function.update_of_ne hne]
    exact h.blocked m' hm'

omit [DecidableEq Msg] [DecidableEq Ni] [DecidableEq Peer] [DecidableEq Pool] [Fintype Msg] [Fintype Ni] in
/-- A buffer given back to a pool in debt goes to the first message blocked
on it, which leaves the queue. -/
theorem PoolInv.give_blocked (h : PoolInv topo msg p rbp) {m2 : Msg} {rest : List Msg}
    (hmsgs0 : rbp.rbpMsgs = m2 :: rest) (hdebt : rbp.rbpCredits + 1 ≤ 0) {msg' : Msg → LnetMsg Buf}
    (hmsg' : ∀ m' ∈ rest, msg' m' = msg m') {rbp' : LnetRtrbufpool Msg Buf}
    (hbufs : rbp'.rbpBufs = rbp.rbpBufs) (hmsgs : rbp'.rbpMsgs = rest)
    (hcredits : rbp'.rbpCredits = rbp.rbpCredits + 1) (hreq : rbp'.rbpReqNbuffers = rbp.rbpReqNbuffers)
    (hlt : rbp.rbpCredits < rbp.rbpReqNbuffers) :
    PoolInv topo msg' p rbp' := by
  have hb := h.bufs
  have hl := h.msgs
  rw [hmsgs0, List.length_cons] at hl
  have hnd := h.nodup
  rw [hmsgs0] at hnd
  refine ⟨?_, ?_, ?_, hmsgs ▸ hnd.of_cons, fun m' hm' => ?_⟩
  · rw [hbufs, hcredits]
    omega
  · rw [hmsgs, hcredits]
    omega
  · rw [hcredits, hreq]
    omega
  · rw [hmsgs] at hm'
    rw [hmsg' m' hm']
    exact h.blocked m' (by rw [hmsgs0]; exact List.mem_cons_of_mem m2 hm')

omit [DecidableEq Msg] [DecidableEq Ni] [DecidableEq Peer] [Fintype Msg] [Fintype Ni] in
/-- A pool changed in all but its queue leaves every queue as it was. -/
theorem rbpMsgs_update {pools : Pool → LnetRtrbufpool Msg Buf} (h : rbp.rbpMsgs = (pools p).rbpMsgs) (q : Pool) :
    (Function.update pools p rbp q).rbpMsgs = (pools q).rbpMsgs := by
  by_cases hq : q = p
  · subst hq
    rw [Function.update_self, h]
  · rw [Function.update_of_ne hq]

end Pool

section Steps

variable {s : LnetRouter Msg Ni Peer Pool Buf} {m : Msg}

omit [DecidableEq Msg] [DecidableEq Pool] in
/-- Messages on a pool's queue are blocked, so hold a buffer credit. -/
theorem RtrInv.not_mem_pool (hinv : RtrInv topo conf s) (hrtr : (s.msg m).msgRtrcredit = false) (p : Pool) :
    m ∉ (s.rtrpools p).rbpMsgs := fun hmp => by
  have hb := ((hinv.pools p).blocked m hmp).2.2.1
  rw [hrtr] at hb
  cases hb

omit [DecidableEq Msg] [DecidableEq Pool] in
/-- Messages on a peer's queue hold no buffer credit. -/
theorem RtrInv.not_mem_rtrq (hinv : RtrInv topo conf s) (hrtr : (s.msg m).msgRtrcredit = true) (lp : Peer) :
    m ∉ s.lpRtrq lp := fun hmq => by
  have hb := (hinv.peers.queued lp m hmq).2.2.1
  rw [hrtr] at hb
  cases hb

/-- The buffer half of the receive, for a message with only its peer credit
and on no queue: it blocks at the tail of its pool's queue or takes a
buffer; no other message changes, the peers' queues stay, and the pools'
queues only grow at the tail. -/
theorem recvRtrBuf_spec (hinv : RtrInv topo conf s) (hm : (s.msg m).PeerOnly) (hq : ∀ lp, m ∉ s.lpRtrq lp) :
    ∃ r s', recvRtrBuf topo m s = some (r, s') ∧ RtrInv topo conf s' ∧
      ((s'.msg m).Blocked ∨ (s'.msg m).Holding) ∧ (∀ m', m' ≠ m → s'.msg m' = s.msg m') ∧
      s'.lpRtrq = s.lpRtrq ∧ ∀ p, ∃ new, (s'.rtrpools p).rbpMsgs = (s.rtrpools p).rbpMsgs ++ new := by
  obtain ⟨hpeer, hrtr, hkiov⟩ := hm
  have hnp := hinv.not_mem_pool hrtr
  have hpool := hinv.pools (topo.msg2bufpool m)
  by_cases hdebt : (s.rtrpools (topo.msg2bufpool m)).rbpCredits - 1 < 0
  · -- the pool is in debt: the message blocks on it
    simp only [recvRtrBuf, takeRtrCredit, hrtr, hdebt, Bool.false_eq_true, if_false, if_true]
    refine ⟨.wait, _, rfl, ⟨fun p => ?_, ?_⟩, .inl ?_, fun m' hm' => Function.update_of_ne hm' _ _, rfl, fun p => ?_⟩
    · by_cases hp : p = topo.msg2bufpool m
      · subst hp
        simp only [Function.update_self]
        refine hpool.take_wait (hnp _) rfl ?_ hdebt ?_ ?_ ?_ ?_
        · exact ⟨hpeer, rfl, hkiov⟩
        all_goals rfl
      · simp only [Function.update_of_ne hp]
        exact (hinv.pools p).update_msg (hnp p) _
    · refine hinv.peers.update_msg hq ?_ rfl rfl rfl
      rfl
    · simp only [Function.update_self]
      exact ⟨hpeer, rfl, hkiov⟩
    · by_cases hp : p = topo.msg2bufpool m
      · subst hp
        exact ⟨[m], by simp only [Function.update_self]⟩
      · exact ⟨[], by simp only [Function.update_of_ne hp, List.append_nil]⟩
  · -- credits to spare: there is a buffer to take
    obtain ⟨rb, bufs, hrb⟩ : ∃ rb bufs, (s.rtrpools (topo.msg2bufpool m)).rbpBufs = rb :: bufs := by
      have hb := hpool.bufs
      cases h : (s.rtrpools (topo.msg2bufpool m)).rbpBufs with
      | nil =>
        rw [h, List.length_nil] at hb
        omega
      | cons rb bufs => exact ⟨rb, bufs, rfl⟩
    simp only [recvRtrBuf, takeRtrCredit, takeRtrBuf, hrtr, hdebt, hrb, Bool.false_eq_true, if_false,
      Function.update_self, Option.map_some, Function.update_idem]
    refine ⟨.ok, _, rfl, ⟨fun p => ?_, ?_⟩, .inr ?_, fun m' hm' => Function.update_of_ne hm' _ _, rfl, fun p => ⟨[], ?_⟩⟩
    · by_cases hp : p = topo.msg2bufpool m
      · subst hp
        simp only [Function.update_self]
        refine hpool.take_buf (hnp _) _ hrb ?_ ?_ ?_ ?_
        all_goals rfl
      · simp only [Function.update_of_ne hp]
        exact (hinv.pools p).update_msg (hnp p) _
    · refine hinv.peers.update_msg hq ?_ rfl rfl rfl
      rfl
    · simp only [Function.update_self]
      exact ⟨hpeer, rfl, rfl⟩
    · by_cases hp : p = topo.msg2bufpool m
      · subst hp
        simp only [Function.update_self, List.append_nil]
      · simp only [Function.update_of_ne hp, List.append_nil]

omit [DecidableEq Pool] in
/-- A message without credits takes a peer credit: it waits at the tail of
its peer's queue, or goes on with the credit and on no queue; only it
changes and the pools stay. -/
theorem takePeerRtrCredit_spec (hinv : RtrInv topo conf s) (hm : (s.msg m).Idle) :
    RtrInv topo conf (takePeerRtrCredit topo m s).2 ∧ (takePeerRtrCredit topo m s).2.rtrpools = s.rtrpools ∧
      (∀ m', m' ≠ m → (takePeerRtrCredit topo m s).2.msg m' = s.msg m') ∧
      ((takePeerRtrCredit topo m s).2.msg m).PeerOnly ∧
      ((takePeerRtrCredit topo m s).1 = false → ∀ lp, m ∉ (takePeerRtrCredit topo m s).2.lpRtrq lp) := by
  obtain ⟨hpeer, hrtr, hkiov⟩ := hm
  -- the message is on no queue: those on a peer's queue hold a peer credit
  have hnq : ∀ lp, m ∉ s.lpRtrq lp := fun lp hmq => by
    have hp := (hinv.peers.queued lp m hmq).2.1
    rw [hpeer] at hp
    cases hp
  have hnp := hinv.not_mem_pool hrtr
  by_cases hdebt : s.lpniRtrcredits (topo.msgRxpeer m) - 1 < 0
  · simp only [takePeerRtrCredit, hpeer, hdebt, Bool.false_eq_true, if_false, if_true]
    -- the pools were left as they were
    refine ⟨⟨fun p => (hinv.pools p).update_msg (hnp p) _, ?_⟩, trivial, fun m' hm' => Function.update_of_ne hm' _ _,
      ?_, fun h => by cases h⟩
    · refine hinv.peers.take_wait hnq hpeer ?_ hdebt rfl rfl rfl
      exact ⟨rfl, hrtr, hkiov⟩
    · simp only [LnetMsg.PeerOnly, Function.update_self, hrtr, hkiov, and_self]
  · simp only [takePeerRtrCredit, hpeer, hdebt, Bool.false_eq_true, if_false]
    refine ⟨⟨fun p => (hinv.pools p).update_msg (hnp p) _, ?_⟩, trivial, fun m' hm' => Function.update_of_ne hm' _ _,
      ?_, fun _ => hnq⟩
    · refine hinv.peers.take_go hnq hpeer ?_ hdebt rfl rfl rfl
      rfl
    · simp only [LnetMsg.PeerOnly, Function.update_self, hrtr, hkiov, and_self]

/-- `lnet_post_routed_recv_locked` on a message without credits: it returns,
and keeps the invariant; no other message changes, and the pools' queues
only grow at the tail. -/
theorem lnetPostRoutedRecvLocked_spec (hinv : RtrInv topo conf s) (hm : (s.msg m).Idle) :
    ∃ r s', lnetPostRoutedRecvLocked topo m s = some (r, s') ∧ RtrInv topo conf s' ∧
      (∀ m', m' ≠ m → s'.msg m' = s.msg m') ∧ ∀ p, ∃ new, (s'.rtrpools p).rbpMsgs = (s.rtrpools p).rbpMsgs ++ new := by
  obtain ⟨hinv₁, hpools, hframe, hpeerOnly, hgo⟩ := takePeerRtrCredit_spec hinv hm
  unfold lnetPostRoutedRecvLocked
  simp only [hm.2.2, Option.isSome_none, Bool.false_eq_true, if_false]
  by_cases hwait : (takePeerRtrCredit topo m s).1 = true
  · -- the message waits for a peer credit
    simp only [hwait, if_true]
    exact ⟨.wait, _, rfl, hinv₁, hframe, fun p => ⟨[], by rw [hpools, List.append_nil]⟩⟩
  · -- on to the buffer credit
    rw [if_neg hwait]
    obtain ⟨r, s', hrecv, hinv', -, hframe', -, hfifo⟩ :=
      recvRtrBuf_spec hinv₁ hpeerOnly (hgo (Bool.eq_false_iff.mpr hwait))
    refine ⟨r, s', hrecv, hinv', fun m' hm' => (hframe' m' hm').trans (hframe m' hm'), fun p => ?_⟩
    rw [← hpools]
    exact hfifo p

omit [Fintype Msg] [Fintype Ni] in
/-- A blocked message scheduled by a returned buffer skips both credits
and takes the first buffer. -/
theorem lnetPostRoutedRecvLocked_of_blocked (hm : (s.msg m).Blocked) :
    lnetPostRoutedRecvLocked topo m s = (takeRtrBuf topo m s).map fun s => (.ok, s) := by
  obtain ⟨hpeer, hrtr, hkiov⟩ := hm
  simp only [lnetPostRoutedRecvLocked, takePeerRtrCredit, recvRtrBuf, takeRtrCredit, hkiov, hpeer, hrtr,
    Option.isSome_none, Bool.false_eq_true, if_false, if_true]

/-- The buffer half of the return, for a message holding its buffer: the
message keeps only its peer credit and is on no queue; the buffer goes back
to the pool, is freed, or goes to the first message blocked on the pool,
which leaves the queue with it; no other message that holds a buffer
changes, and the peers stay as they were. -/
theorem returnRtrCredit_spec (hinv : RtrInv topo conf s) (hm : (s.msg m).Holding) :
    ∃ s', returnRtrCredit topo m s = some s' ∧ RtrInv topo conf s' ∧ (s'.msg m).PeerOnly ∧
      (∀ m', m' ≠ m → (s.msg m').Holding → s'.msg m' = s.msg m') ∧
      s'.lpRtrq = s.lpRtrq ∧ s'.lpniRtrcredits = s.lpniRtrcredits ∧
      ∀ p, (s'.rtrpools p).rbpMsgs = (s.rtrpools p).rbpMsgs ∨
        ∃ m2, (s.rtrpools p).rbpMsgs = m2 :: (s'.rtrpools p).rbpMsgs ∧ (s'.msg m2).Holding := by
  obtain ⟨hpeer, hrtr, hkiov⟩ := hm
  obtain ⟨rb, hrb⟩ := Option.isSome_iff_exists.mp hkiov
  have hnq := hinv.not_mem_rtrq hrtr
  -- blocked messages have no buffer
  have hnp : ∀ p, m ∉ (s.rtrpools p).rbpMsgs := fun p hmp => by
    have hk := ((hinv.pools p).blocked m hmp).2.2.2
    rw [hrb] at hk
    cases hk
  have hpool := hinv.pools (topo.msg2bufpool m)
  have hassert : ¬ ¬ (0 < (s.rtrpools (topo.msg2bufpool m)).rbpCredits ↔
      (s.rtrpools (topo.msg2bufpool m)).rbpBufs ≠ []) := by
    have hb := hpool.bufs
    rw [not_not, ← List.length_pos_iff]
    omega
  simp only [returnRtrCredit, hrtr, hrb, Bool.not_true, Bool.false_eq_true, if_false, hassert]
  -- the message keeps its peer credit only, and other pools see no change
  have hpeerOnly : (Function.update s.msg m { s.msg m with msgKiov := none, msgRtrcredit := false } m).PeerOnly := by
    simp only [LnetMsg.PeerOnly, Function.update_self, hpeer, and_self]
  have hother := fun p => (hinv.pools p).update_msg (hnp p) { s.msg m with msgKiov := none, msgRtrcredit := false }
  by_cases hdisc : (s.rtrpools (topo.msg2bufpool m)).rbpReqNbuffers ≤ (s.rtrpools (topo.msg2bufpool m)).rbpCredits
  · -- the pool has what was asked for: the buffer is freed
    simp only [hdisc, if_true]
    refine ⟨_, rfl, ⟨fun p => ?_, ?_⟩, hpeerOnly, fun m' hm' _ => Function.update_of_ne hm' _ _, rfl, rfl,
      fun p => .inl (rbpMsgs_update (by rfl) p)⟩
    · by_cases hp : p = topo.msg2bufpool m
      · subst hp
        have h := hother (topo.msg2bufpool m)
        simp only [Function.update_self]
        exact ⟨h.bufs, h.msgs, h.credits_le, h.nodup, h.blocked⟩
      · simp only [Function.update_of_ne hp]
        exact hother p
    · refine hinv.peers.update_msg hnq ?_ rfl rfl rfl
      rfl
  · simp only [hdisc, if_false]
    have hlt := lt_of_not_ge hdisc
    by_cases hsched : (s.rtrpools (topo.msg2bufpool m)).rbpCredits + 1 ≤ 0
    · -- a message is blocked on the pool: it takes the buffer
      obtain ⟨m2, rest, hmsgs0⟩ : ∃ m2 rest, (s.rtrpools (topo.msg2bufpool m)).rbpMsgs = m2 :: rest := by
        have hl := hpool.msgs
        cases h : (s.rtrpools (topo.msg2bufpool m)).rbpMsgs with
        | nil =>
          rw [h, List.length_nil] at hl
          omega
        | cons m2 rest => exact ⟨m2, rest, rfl⟩
      obtain ⟨hpm2, hb2⟩ := hpool.blocked m2 (by rw [hmsgs0]; exact List.mem_cons_self)
      have hm2 : m2 ≠ m := fun h => hnp _ (by rw [hmsgs0, h]; exact List.mem_cons_self)
      simp only [hsched, if_true, lnetScheduleBlockedLocked, Function.update_self, hmsgs0]
      rw [lnetPostRoutedRecvLocked_of_blocked (by simp only [Function.update_of_ne hm2]; exact hb2)]
      simp only [takeRtrBuf, hpm2, Function.update_self, Function.update_idem, Function.update_of_ne hm2,
        Option.map_some]
      -- only the returning message and the scheduled one change
      have hm2p : ∀ p, p ≠ topo.msg2bufpool m → m2 ∉ (s.rtrpools p).rbpMsgs := fun p hp hm2p =>
        hp (((hinv.pools p).blocked m2 hm2p).1.symm.trans hpm2)
      have hpeers₁ : PeerInv topo conf
          { s with msg := Function.update s.msg m { s.msg m with msgKiov := none, msgRtrcredit := false } } := by
        refine hinv.peers.update_msg hnq ?_ rfl rfl rfl
        rfl
      refine ⟨_, rfl, ⟨fun p => ?_, ?_⟩, ?_, fun m' hm' hhold => ?_, rfl, rfl, fun p => ?_⟩
      · by_cases hp : p = topo.msg2bufpool m
        · subst hp
          simp only [Function.update_self]
          refine hpool.give_blocked hmsgs0 hsched (fun m' hm' => ?_) ?_ ?_ ?_ ?_ hlt
          · -- the rest of the queue is neither message
            have hnd := hpool.nodup
            rw [hmsgs0, List.nodup_cons] at hnd
            have hne2 : m' ≠ m2 := fun h => hnd.1 (h ▸ hm')
            have hne : m' ≠ m := fun h => hnp _ (by rw [hmsgs0, ← h]; exact List.mem_cons_of_mem m2 hm')
            rw [Function.update_of_ne hne2, Function.update_of_ne hne]
          all_goals rfl
        · simp only [Function.update_of_ne hp]
          exact (hother p).update_msg (hm2p p hp) _
      · refine hpeers₁.update_msg (hinv.not_mem_rtrq hb2.2.1) ?_ rfl rfl rfl
        simp only [Function.update_of_ne hm2]
      · simp only [Function.update_of_ne (Ne.symm hm2), Function.update_self, LnetMsg.PeerOnly, hpeer, and_self]
      · -- a message holding a buffer is neither the scheduled one nor the returning one
        simp only [Function.update_of_ne (ne_of_holding hhold hb2.2.2), Function.update_of_ne hm']
      · by_cases hp : p = topo.msg2bufpool m
        · subst hp
          refine .inr ⟨m2, ?_, ?_⟩
          · simp only [Function.update_self, hmsgs0]
          · simp only [Function.update_self, LnetMsg.Holding, hb2.1, hb2.2.1, Option.isSome_some, and_self]
        · left
          simp only [Function.update_of_ne hp]
    · simp only [hsched, if_false]
      refine ⟨_, rfl, ⟨fun p => ?_, ?_⟩, hpeerOnly, fun m' hm' _ => Function.update_of_ne hm' _ _, rfl, rfl,
        fun p => .inl (rbpMsgs_update (by rfl) p)⟩
      · by_cases hp : p = topo.msg2bufpool m
        · subst hp
          simp only [Function.update_self]
          refine hpool.give_back (hnp _) _ (by omega) rb ?_ ?_ ?_ ?_ hlt
          all_goals rfl
        · simp only [Function.update_of_ne hp]
          exact hother p
      · refine hinv.peers.update_msg hnq ?_ rfl rfl rfl
        rfl

omit [Fintype Msg] [Fintype Ni] in
/-- A message taken off its peer's queue has its peer credit: it goes
straight on to the buffer credit. -/
theorem lnetPostRoutedRecvLocked_of_peerOnly (hm : (s.msg m).PeerOnly) :
    lnetPostRoutedRecvLocked topo m s = recvRtrBuf topo m s := by
  obtain ⟨hpeer, -, hkiov⟩ := hm
  simp only [lnetPostRoutedRecvLocked, takePeerRtrCredit, hkiov, hpeer, Option.isSome_none, Bool.false_eq_true,
    if_false, if_true]

/-- The peer half of the return, for a message with only its peer credit and
on no queue: the message is left without credits, and the first message of
its peer's queue, if any, goes on to its buffer credit; no other message
that holds a buffer changes, and the pools' queues only grow at the tail. -/
theorem returnPeerRtrCredit_spec (hinv : RtrInv topo conf s) (hm : (s.msg m).PeerOnly) (hq : ∀ lp, m ∉ s.lpRtrq lp) :
    ∃ s', returnPeerRtrCredit topo m s = some s' ∧ RtrInv topo conf s' ∧ (s'.msg m).Idle ∧
      (∀ m', m' ≠ m → (s.msg m').Holding → s'.msg m' = s.msg m') ∧
      ∀ p, ∃ new, (s'.rtrpools p).rbpMsgs = (s.rtrpools p).rbpMsgs ++ new := by
  obtain ⟨hpeer, hrtr, hkiov⟩ := hm
  have hnp := hinv.not_mem_pool hrtr
  have hother := fun p => (hinv.pools p).update_msg (hnp p) { s.msg m with msgPeerrtrcredit := false }
  have hidle : (Function.update s.msg m { s.msg m with msgPeerrtrcredit := false } m).Idle := by
    simp only [LnetMsg.Idle, Function.update_self, hrtr, hkiov, and_self]
  simp only [returnPeerRtrCredit, hpeer, Bool.not_true, Bool.false_eq_true, if_false]
  cases hql : s.lpRtrq (topo.lpnPeer (topo.msgRxpeer m)) with
  | nil =>
    -- nobody waits on the peer
    refine ⟨_, rfl, ⟨hother, ?_⟩, hidle, fun m' hm' _ => Function.update_of_ne hm' _ _,
      fun p => ⟨[], (List.append_nil _).symm⟩⟩
    refine hinv.peers.give hq hpeer ?_ rfl rfl ?_
    · rfl
    · rw [hql, List.tail_nil, ← hql, Function.update_eq_self]
  | cons m2 rest =>
    -- the first message on the peer's queue goes on
    have hm2q : m2 ∈ s.lpRtrq (topo.lpnPeer (topo.msgRxpeer m)) := by
      rw [hql]
      exact List.mem_cons_self
    obtain ⟨hlp2, hm2⟩ := hinv.peers.queued _ m2 hm2q
    have hne : m2 ≠ m := fun h => hq _ (h ▸ hm2q)
    have hpeers₂ : PeerInv topo conf
        { s with
          msg := Function.update s.msg m { s.msg m with msgPeerrtrcredit := false }
          lpniRtrcredits := Function.update s.lpniRtrcredits (topo.msgRxpeer m) (s.lpniRtrcredits (topo.msgRxpeer m) + 1)
          lpRtrq := Function.update s.lpRtrq (topo.lpnPeer (topo.msgRxpeer m)) rest } := by
      refine hinv.peers.give hq hpeer ?_ rfl rfl ?_
      · rfl
      · rw [hql, List.tail_cons]
    -- it is on no queue any more: its peer's queue held it once
    have hm2q' : ∀ lp, m2 ∉ Function.update s.lpRtrq (topo.lpnPeer (topo.msgRxpeer m)) rest lp := fun lp h => by
      by_cases hlp : lp = topo.lpnPeer (topo.msgRxpeer m)
      · subst hlp
        rw [Function.update_self] at h
        have hnd := hinv.peers.nodup (topo.lpnPeer (topo.msgRxpeer m))
        rw [hql, List.nodup_cons] at hnd
        exact hnd.1 h
      · rw [Function.update_of_ne hlp] at h
        exact hlp ((hinv.peers.queued lp m2 h).1.symm.trans hlp2)
    have hm2' : (Function.update s.msg m { s.msg m with msgPeerrtrcredit := false } m2).PeerOnly := by
      rw [Function.update_of_ne hne]
      exact hm2
    dsimp only
    rw [lnetPostRoutedRecvLocked_of_peerOnly hm2']
    obtain ⟨r, s', hrecv, hinv', -, hframe, -, hfifo⟩ :=
      recvRtrBuf_spec (s := { s with
          msg := Function.update s.msg m { s.msg m with msgPeerrtrcredit := false }
          lpniRtrcredits := Function.update s.lpniRtrcredits (topo.msgRxpeer m) (s.lpniRtrcredits (topo.msgRxpeer m) + 1)
          lpRtrq := Function.update s.lpRtrq (topo.lpnPeer (topo.msgRxpeer m)) rest })
        ⟨hother, hpeers₂⟩ hm2' hm2q'
    refine ⟨s', by rw [hrecv, Option.map_some], hinv', ?_, fun m' hm' hhold => ?_, hfifo⟩
    · rw [hframe m (Ne.symm hne)]
      exact hidle
    · -- a message holding a buffer is not the one that was waiting
      rw [hframe m' (ne_of_holding hhold hm2.2.2)]
      exact Function.update_of_ne hm' _ _

/-- `lnet_return_rx_credits_locked` on a message holding its buffer: it
returns and keeps the invariant, the message is left without credits, and
each pool serves its blocked messages in order: those gone from the front
of its queue now hold a buffer. -/
theorem lnetReturnRxCreditsLocked_spec (hinv : RtrInv topo conf s) (hm : (s.msg m).Holding) :
    ∃ s', lnetReturnRxCreditsLocked topo m s = some s' ∧ RtrInv topo conf s' ∧ (s'.msg m).Idle ∧
      ∀ p, ∃ k new, (s'.rtrpools p).rbpMsgs = (s.rtrpools p).rbpMsgs.drop k ++ new ∧
        ∀ m' ∈ (s.rtrpools p).rbpMsgs.take k, (s'.msg m').Holding := by
  obtain ⟨s₁, hret₁, hinv₁, hm₁, hframe₁, hrtrq₁, -, hpools₁⟩ := returnRtrCredit_spec hinv hm
  have hq₁ : ∀ lp, m ∉ s₁.lpRtrq lp := by
    rw [hrtrq₁]
    exact hinv.not_mem_rtrq hm.2.1
  obtain ⟨s₂, hret₂, hinv₂, hm₂, hframe₂, hpools₂⟩ := returnPeerRtrCredit_spec hinv₁ hm₁ hq₁
  refine ⟨s₂, by rw [lnetReturnRxCreditsLocked, hret₁, Option.bind_some, hret₂], hinv₂, hm₂, fun p => ?_⟩
  obtain ⟨new, hnew⟩ := hpools₂ p
  rcases hpools₁ p with hsame | ⟨m2, hpop, hheld⟩
  · -- nothing served: the queue only grew
    refine ⟨0, new, ?_, fun m' hm' => by simp at hm'⟩
    rw [hnew, hsame, List.drop_zero]
  · -- the first message was served, and the peer half left it alone
    refine ⟨1, new, ?_, fun m' hm' => ?_⟩
    · rw [hnew, hpop, List.drop_one, List.tail_cons]
    · rw [hpop, List.take_one, List.head?_cons, Option.toList_some, List.mem_singleton] at hm'
      subst hm'
      have hne : m' ≠ m := fun h => by
        have hk := hm₁.2.2
        have hs := hheld.2.2
        rw [← h] at hk
        rw [hk] at hs
        cases hs
      rw [hframe₂ m' hne hheld]
      exact hheld

end Steps

end Invariant

/-- Each pool serves its blocked messages in order: those gone from the
front of `rbp_msgs` hold a buffer, and the others are still there, with
the newcomers behind them. -/
def ServedInOrder (s s' : LnetRouter Msg Ni Peer Pool Buf) : Prop :=
  ∀ p, ∃ k new, (s'.rtrpools p).rbpMsgs = (s.rtrpools p).rbpMsgs.drop k ++ new ∧
    ∀ m ∈ (s.rtrpools p).rbpMsgs.take k, (s'.msg m).Holding

/-- Serving in order is serving from the front of the queue. -/
theorem ServedInOrder.fifo {s s' : LnetRouter Msg Ni Peer Pool Buf} (h : ServedInOrder s s') (p : Pool) :
    Waiters.Fifo (s.rtrpools p).rbpMsgs (s'.rtrpools p).rbpMsgs := by
  obtain ⟨k, new, hq, -⟩ := h p
  exact ⟨k, new, hq⟩

/-- A router at its start: the pools hold their buffers, each peer NI has
its configured credits `conf`. -/
def RtrStart (conf : Ni → Int) (s : LnetRouter Msg Ni Peer Pool Buf) : Prop :=
  ∃ bufs, s = lnetRtrInit conf bufs

section Runs

variable [DecidableEq Msg] [DecidableEq Ni] [DecidableEq Peer] [DecidableEq Pool] [Fintype Msg] [Fintype Ni]
  {topo : LnetTopo Msg Ni Peer Pool} {conf : Ni → Int}

omit [DecidableEq Msg] [DecidableEq Pool] in
theorem RtrInv.start {s : LnetRouter Msg Ni Peer Pool Buf} (hs : RtrStart conf s) : RtrInv topo conf s := by
  obtain ⟨bufs, rfl⟩ := hs
  refine ⟨fun p => ⟨?_, ?_, le_refl _, List.nodup_nil, fun _ h => (by cases h)⟩,
    ⟨fun _ => List.nodup_nil, fun _ _ h => (by cases h), fun n => ?_, fun _ => Nat.zero_le _⟩⟩
  · simp [lnetRtrInit]
  · simp [lnetRtrInit]
  · -- no message holds a credit yet
    simp [lnetRtrInit, rtrHolders]

/-- Every operation the rest of LNet may ask for returns and keeps the
invariant, and the pools serve their blocked messages in order. -/
theorem lnetRtrStep_spec {s : LnetRouter Msg Ni Peer Pool Buf} (hinv : RtrInv topo conf s) {op : RtrOp Msg}
    (hop : RtrAllowed s op) :
    ∃ r s', lnetRtrStep topo s op = some (r, s') ∧ RtrInv topo conf s' ∧ ServedInOrder s s' := by
  cases op with
  | recv m =>
    -- a receive serves nobody: the queues only grow
    obtain ⟨r, s', hpost, hinv', -, hfifo⟩ := lnetPostRoutedRecvLocked_spec hinv hop
    refine ⟨some r, s', by rw [lnetRtrStep, hpost, Option.map_some], hinv', fun p => ?_⟩
    obtain ⟨new, hnew⟩ := hfifo p
    exact ⟨0, new, by rw [List.drop_zero, hnew], fun m' hm' => by simp at hm'⟩
  | finalize m =>
    obtain ⟨s', hret, hinv', -, hserved⟩ := lnetReturnRxCreditsLocked_spec hinv hop
    exact ⟨none, s', by rw [lnetRtrStep, hret, Option.map_some], hinv', hserved⟩

/-- Every state reached from the start keeps the invariant. -/
theorem RtrInv.of_reachable {s : LnetRouter Msg Ni Peer Pool Buf}
    (hs : StepRun.Reachable (lnetRtrStep topo) RtrAllowed (RtrStart conf) s) : RtrInv topo conf s :=
  StepRun.Reachable.inv _ _ (RtrInv topo conf) (fun _ h => RtrInv.start h) (fun s op r s' hop hinv hstep => by
    obtain ⟨r', s'', hstep', hinv', -⟩ := lnetRtrStep_spec hinv hop
    rw [hstep, Option.some.injEq, Prod.mk.injEq] at hstep'
    rw [hstep'.2]
    exact hinv') hs

/-- In every state reached from the start, every operation the rest of
LNet may ask for returns, and after it: each buffer pool has as many free
buffers as positive credits, as many blocked messages as negative ones, and
no more credits than buffers asked for; each pool serves its blocked
messages in order; each peer NI has its configured credits less the
messages that hold one; and each peer's queue is no longer than the debt of
its NIs. -/
theorem lnet_router_credits_balance {s : LnetRouter Msg Ni Peer Pool Buf}
    (hs : StepRun.Reachable (lnetRtrStep topo) RtrAllowed (RtrStart conf) s) {op : RtrOp Msg} (hop : RtrAllowed s op) :
    ∃ r s', lnetRtrStep topo s op = some (r, s') ∧
      (∀ p, ((s'.rtrpools p).rbpBufs.length : Int) = max 0 (s'.rtrpools p).rbpCredits ∧
        ((s'.rtrpools p).rbpMsgs.length : Int) = max 0 (-(s'.rtrpools p).rbpCredits) ∧
        (s'.rtrpools p).rbpCredits ≤ (s'.rtrpools p).rbpReqNbuffers) ∧
      ServedInOrder s s' ∧
      (∀ n, s'.lpniRtrcredits n = conf n - rtrHolders topo s'.msg n) ∧
      ∀ lp, (s'.lpRtrq lp).length ≤ peerDebt topo s'.lpniRtrcredits lp := by
  obtain ⟨r, s', hstep, hinv', hserved⟩ := lnetRtrStep_spec (RtrInv.of_reachable hs) hop
  refine ⟨r, s', hstep, fun p => ⟨(hinv'.pools p).bufs, (hinv'.pools p).msgs, (hinv'.pools p).credits_le⟩,
    hserved, fun n => ?_, hinv'.peers.debt⟩
  have h := hinv'.peers.credits n
  omega

end Runs

/-- Two peer NIs `0` and `1` of one peer and one buffer pool: message `0`
comes from NI `0`, messages `1` and `2` from NI `1`. -/
def twoNiTopo : LnetTopo (Fin 3) (Fin 2) Unit Unit where
  msgRxpeer m := if m.val = 0 then ⟨0, Nat.zero_lt_two⟩ else ⟨1, Nat.one_lt_two⟩
  lpnPeer _ := ()
  msg2bufpool _ := ()

/-- The router of `twoNiTopo` with three buffers and one router credit per
NI. -/
def twoNiStart : LnetRouter (Fin 3) (Fin 2) Unit Unit (Fin 3) := lnetRtrInit (fun _ => 1) (fun _ => List.finRange 3)

theorem lnet_router_first_receive :
    ∃ r s', lnetRtrStep twoNiTopo twoNiStart (.recv 1) = some (r, s') ∧
      (∀ p, ((s'.rtrpools p).rbpBufs.length : Int) = max 0 (s'.rtrpools p).rbpCredits ∧
        ((s'.rtrpools p).rbpMsgs.length : Int) = max 0 (-(s'.rtrpools p).rbpCredits) ∧
        (s'.rtrpools p).rbpCredits ≤ (s'.rtrpools p).rbpReqNbuffers) ∧
      ServedInOrder twoNiStart s' ∧
      (∀ n, s'.lpniRtrcredits n = (fun _ => 1) n - rtrHolders twoNiTopo s'.msg n) ∧
      ∀ lp, (s'.lpRtrq lp).length ≤ peerDebt twoNiTopo s'.lpniRtrcredits lp :=
  lnet_router_credits_balance (.start ⟨_, rfl⟩) (by decide)

/-- Message `1` takes NI `1`'s credit, message `2` waits for it on the
peer's queue, message `0` takes NI `0`'s credit and is done: the credit it
gives back to NI `0` lets message `2` go on. NI `1`, configured with one
credit, then has two messages going on with its credits. -/
theorem lnet_peer_rtr_credits_overdrawn :
    ∃ s : LnetRouter (Fin 3) (Fin 2) Unit Unit (Fin 3),
      StepRun.Reachable (lnetRtrStep twoNiTopo) RtrAllowed (RtrStart fun _ => 1) s ∧
      (Finset.univ.filter fun m =>
        twoNiTopo.msgRxpeer m = 1 ∧ (s.msg m).msgPeerrtrcredit = true ∧ ∀ lp, m ∉ s.lpRtrq lp).card = 2 := by
  have hsome : (StepRun.run (lnetRtrStep twoNiTopo) twoNiStart [.recv 1, .recv 2, .recv 0, .finalize 0]).isSome :=
    by decide
  obtain ⟨⟨rs, s⟩, hrun⟩ := Option.isSome_iff_exists.mp hsome
  have hcount : ((StepRun.run (lnetRtrStep twoNiTopo) twoNiStart [.recv 1, .recv 2, .recv 0, .finalize 0]).map
      fun r => (Finset.univ.filter fun m =>
        twoNiTopo.msgRxpeer m = 1 ∧ (r.2.msg m).msgPeerrtrcredit = true ∧ ∀ lp, m ∉ r.2.lpRtrq lp).card) = some 2 := by
    decide
  rw [hrun, Option.map_some, Option.some.injEq] at hcount
  refine ⟨s, StepRun.Reachable.of_run _ _ _ (StepRun.allowedRun_of_allowedRunB _ _ _ _ (by decide))
    (.start ⟨_, rfl⟩) hrun, hcount⟩

end Lustre.Lnet
