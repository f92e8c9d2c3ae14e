import Mathlib

/-! # Router buffer credits and peer router credits

`lnet/lnet/lib-move.c`. A message that an LNet router forwards is received
into one of the router's buffers. Before that it takes two credits:

* a peer router credit of the peer NI it came from (`lpni_rtrcredits`);
  when that NI is in debt the message waits on the peer's queue `lp_rtrq`,
  one queue for all the NIs of the peer;
* a buffer credit of the buffer pool its length picks
  (`lnet_msg2bufpool`); when the pool is in debt the message waits on
  `rbp_msgs`, and otherwise it takes the first buffer of `rbp_bufs`.

`lnet_post_routed_recv_locked` takes the credits and the buffer, and
`lnet_return_rx_credits_locked` gives them back when the message is done:
the buffer goes back to the pool, or is freed when the pool holds more
than `rbp_req_nbuffers`, and a message blocked on the pool is handed it
(`lnet_schedule_blocked_locked`); the peer credit goes back to the NI, and
the first message of the peer's queue goes on to take its buffer.

The router's state is one record over messages `Msg`, peer NIs `Ni`, peers
`Peer`, buffer pools `Pool` and buffers `Buf`, updated with
`Function.update`. Where each message comes from and which pool it uses do
not change while it holds credits: they are `LnetTopo`. Routing is on
throughout: the branches that drop buffers and queued messages once routing
is turned off are not modelled. The LND's receive (`lnet_ni_recv`), the
unlocking around it and the reference counts of NIs and peers are left
out; the locks are held. An `LASSERT` that fails is `none`.
-/

namespace Lustre.Lnet

/-- `LNET_CREDIT_OK` or `LNET_CREDIT_WAIT`. -/
inductive LnetCredit
  | ok
  | wait
  deriving DecidableEq, Repr

/-- What the credit code reads and writes of `struct lnet_msg`, with the
router buffer that `msg_kiov` points into (`NULL` is `none`). -/
structure LnetMsg (Buf : Type) where
  msgPeerrtrcredit : Bool
  msgRtrcredit : Bool
  msgKiov : Option Buf
  msgRxDelayed : Bool
  deriving DecidableEq, Repr

/-- `struct lnet_rtrbufpool`. -/
structure LnetRtrbufpool (Msg Buf : Type) where
  rbpBufs : List Buf
  rbpMsgs : List Msg
  rbpNbuffers : Int
  rbpReqNbuffers : Int
  rbpCredits : Int
  rbpMincredits : Int
  deriving DecidableEq, Repr

/-- The peer NI a message was received from (`msg_rxpeer`), the peer of
each peer NI (`lpni_peer_net->lpn_peer`) and the pool `lnet_msg2bufpool`
picks for a message. -/
structure LnetTopo (Msg Ni Peer Pool : Type) where
  msgRxpeer : Msg → Ni
  lpnPeer : Ni → Peer
  msg2bufpool : Msg → Pool

/-- The router's messages, buffer pools (`the_lnet.ln_rtrpools`), peer NIs'
router credits and peers' queues. -/
structure LnetRouter (Msg Ni Peer Pool Buf : Type) where
  msg : Msg → LnetMsg Buf
  rtrpools : Pool → LnetRtrbufpool Msg Buf
  lpniRtrcredits : Ni → Int
  lpniMinrtrcredits : Ni → Int
  lpRtrq : Peer → List Msg

section Credits

variable {Msg Ni Peer Pool Buf : Type} [DecidableEq Msg] [DecidableEq Ni] [DecidableEq Peer] [DecidableEq Pool]
  (topo : LnetTopo Msg Ni Peer Pool)

/-- The part of `lnet_post_routed_recv_locked` under `lpni_lock`: a message
without a peer router credit takes one from its peer NI, and is `true`
when that leaves the NI in debt and the message waits on `lp_rtrq`. -/
def takePeerRtrCredit (m : Msg) (s : LnetRouter Msg Ni Peer Pool Buf) : Bool × LnetRouter Msg Ni Peer Pool Buf :=
  let x := s.msg m
  if x.msgPeerrtrcredit then (false, s)
  else
    let lpni := topo.msgRxpeer m
    let credits := s.lpniRtrcredits lpni - 1
    let s := { s with
      lpniRtrcredits := Function.update s.lpniRtrcredits lpni credits
      lpniMinrtrcredits := Function.update s.lpniMinrtrcredits lpni (min (s.lpniMinrtrcredits lpni) credits) }
    if credits < 0 then
      let lp := topo.lpnPeer lpni
      (true, { s with
        msg := Function.update s.msg m { x with msgPeerrtrcredit := true, msgRxDelayed := true }
        lpRtrq := Function.update s.lpRtrq lp (s.lpRtrq lp ++ [m]) })
    else (false, { s with msg := Function.update s.msg m { x with msgPeerrtrcredit := true } })

/-- The buffer credit: a message without one takes one from its pool, and
is `true` when that leaves the pool in debt and the message waits on
`rbp_msgs`. -/
def takeRtrCredit (m : Msg) (s : LnetRouter Msg Ni Peer Pool Buf) : Bool × LnetRouter Msg Ni Peer Pool Buf :=
  let x := s.msg m
  if x.msgRtrcredit then (false, s)
  else
    let p := topo.msg2bufpool m
    let rbp := s.rtrpools p
    let credits := rbp.rbpCredits - 1
    let rbp := { rbp with rbpCredits := credits, rbpMincredits := min rbp.rbpMincredits credits }
    if credits < 0 then
      (true, { s with
        msg := Function.update s.msg m { x with msgRtrcredit := true, msgRxDelayed := true }
        rtrpools := Function.update s.rtrpools p { rbp with rbpMsgs := rbp.rbpMsgs ++ [m] } })
    else
      (false, { s with
        msg := Function.update s.msg m { x with msgRtrcredit := true }
        rtrpools := Function.update s.rtrpools p rbp })

/-- The message takes the first buffer of its pool; `LASSERT` that there is
one. -/
def takeRtrBuf (m : Msg) (s : LnetRouter Msg Ni Peer Pool Buf) : Option (LnetRouter Msg Ni Peer Pool Buf) :=
  let p := topo.msg2bufpool m
  let rbp := s.rtrpools p
  match rbp.rbpBufs with
  | [] => none
  | rb :: bufs =>
    some { s with
      msg := Function.update s.msg m { s.msg m with msgKiov := some rb, msgRxDelayed := false }
      rtrpools := Function.update s.rtrpools p { rbp with rbpBufs := bufs } }

/-- The buffer half of `lnet_post_routed_recv_locked`: the buffer credit,
then the buffer. -/
def recvRtrBuf (m : Msg) (s : LnetRouter Msg Ni Peer Pool Buf) : Option (LnetCredit × LnetRouter Msg Ni Peer Pool Buf) :=
  let r := takeRtrCredit topo m s
  if r.1 then some (.wait, r.2) else (takeRtrBuf topo m r.2).map fun s => (.ok, s)

/-- `lnet_post_routed_recv_locked(msg, do_recv)`: `LNET_CREDIT_WAIT` when the
message blocks on a credit, `LNET_CREDIT_OK` when it has its buffer. -/
def lnetPostRoutedRecvLocked (m : Msg) (s : LnetRouter Msg Ni Peer Pool Buf) :
    Option (LnetCredit × LnetRouter Msg Ni Peer Pool Buf) :=
  -- LASSERT(msg->msg_kiov == NULL)
  if (s.msg m).msgKiov.isSome then none
  else
    let r := takePeerRtrCredit topo m s
    if r.1 then some (.wait, r.2) else recvRtrBuf topo m r.2

/-- `lnet_schedule_blocked_locked(rbp)`: the first message blocked on the
pool, if any, goes on to take its buffer. -/
def lnetScheduleBlockedLocked (p : Pool) (s : LnetRouter Msg Ni Peer Pool Buf) :
    Option (LnetRouter Msg Ni Peer Pool Buf) :=
  match (s.rtrpools p).rbpMsgs with
  | [] => some s
  | m :: msgs =>
    (lnetPostRoutedRecvLocked topo m
      { s with rtrpools := Function.update s.rtrpools p { s.rtrpools p with rbpMsgs := msgs } }).map Prod.snd

/-- The buffer half of `lnet_return_rx_credits_locked`, routing on: the
buffer goes back to its pool, or is freed when the pool already has its
requested number, and a message blocked on the pool is scheduled. -/
def returnRtrCredit (m : Msg) (s : LnetRouter Msg Ni Peer Pool Buf) : Option (LnetRouter Msg Ni Peer Pool Buf) :=
  let x := s.msg m
  if !x.msgRtrcredit then some s
  else
    match x.msgKiov with
    | none => none
    | some rb =>
      let p := topo.msg2bufpool m
      let rbp := s.rtrpools p
      let s := { s with msg := Function.update s.msg m { x with msgKiov := none, msgRtrcredit := false } }
      -- LASSERT((rbp->rbp_credits > 0) == !list_empty(&rbp->rbp_bufs))
      if ¬ (0 < rbp.rbpCredits ↔ rbp.rbpBufs ≠ []) then none
      else if rbp.rbpReqNbuffers ≤ rbp.rbpCredits then
        -- the requested number was lowered: discard the buffer
        some { s with rtrpools := Function.update s.rtrpools p { rbp with rbpNbuffers := rbp.rbpNbuffers - 1 } }
      else
        let s := { s with
          rtrpools := Function.update s.rtrpools p
            { rbp with rbpBufs := rb :: rbp.rbpBufs, rbpCredits := rbp.rbpCredits + 1 } }
        if rbp.rbpCredits + 1 ≤ 0 then lnetScheduleBlockedLocked topo p s else some s

/-- The peer half of `lnet_return_rx_credits_locked`, routing on: the peer
router credit goes back to the NI, and the first message on the peer's
queue, whichever of its NIs it came from, goes on to take its buffer. -/
def returnPeerRtrCredit (m : Msg) (s : LnetRouter Msg Ni Peer Pool Buf) : Option (LnetRouter Msg Ni Peer Pool Buf) :=
  let x := s.msg m
  if !x.msgPeerrtrcredit then some s
  else
    let lpni := topo.msgRxpeer m
    let lp := topo.lpnPeer lpni
    let s := { s with
      msg := Function.update s.msg m { x with msgPeerrtrcredit := false }
      lpniRtrcredits := Function.update s.lpniRtrcredits lpni (s.lpniRtrcredits lpni + 1) }
    match s.lpRtrq lp with
    | [] => some s
    | m2 :: rest =>
      (lnetPostRoutedRecvLocked topo m2 { s with lpRtrq := Function.update s.lpRtrq lp rest }).map Prod.snd

/-- `lnet_return_rx_credits_locked(msg)` with routing on. -/
def lnetReturnRxCreditsLocked (m : Msg) (s : LnetRouter Msg Ni Peer Pool Buf) :
    Option (LnetRouter Msg Ni Peer Pool Buf) :=
  (returnRtrCredit topo m s).bind (returnPeerRtrCredit topo m)

end Credits

/-- What happens to a routed message: it arrives and takes its credits
(`lnet_parse` calls `lnet_post_routed_recv_locked`), or it is done and
gives them back (`lnet_finalize` calls `lnet_return_rx_credits_locked`). -/
inductive RtrOp (Msg : Type)
  | recv (m : Msg)
  | finalize (m : Msg)
  deriving DecidableEq, Repr

/-- One operation of the router: the credit result of a receive. -/
def lnetRtrStep {Msg Ni Peer Pool Buf : Type} [DecidableEq Msg] [DecidableEq Ni] [DecidableEq Peer] [DecidableEq Pool]
    (topo : LnetTopo Msg Ni Peer Pool) (s : LnetRouter Msg Ni Peer Pool Buf) :
    RtrOp Msg → Option (Option LnetCredit × LnetRouter Msg Ni Peer Pool Buf)
  | .recv m => (lnetPostRoutedRecvLocked topo m s).map fun r => (some r.1, r.2)
  | .finalize m => (lnetReturnRxCreditsLocked topo m s).map fun s => (none, s)

/-- A router before any message: each pool holds the buffers
`lnet_rtrpool_adjust_bufs` allocated for it, as many as it was asked for,
and each peer NI has its configured router credits `conf`. -/
def lnetRtrInit {Msg Ni Peer Pool Buf : Type} (conf : Ni → Int) (bufs : Pool → List Buf) :
    LnetRouter Msg Ni Peer Pool Buf where
  msg _ := ⟨false, false, none, false⟩
  rtrpools p := ⟨bufs p, [], (bufs p).length, (bufs p).length, (bufs p).length, (bufs p).length⟩
  lpniRtrcredits := conf
  lpniMinrtrcredits := conf
  lpRtrq _ := []

/-- What the rest of LNet asks of the two calls: a message arrives without
credits or buffer, and is finalized while it holds both credits and its
buffer (a message blocked on a credit stays blocked until it has them). -/
def RtrAllowed {Msg Ni Peer Pool Buf : Type} (s : LnetRouter Msg Ni Peer Pool Buf) : RtrOp Msg → Prop
  | .recv m => (s.msg m).msgPeerrtrcredit = false ∧ (s.msg m).msgRtrcredit = false ∧ (s.msg m).msgKiov = none
  | .finalize m => (s.msg m).msgPeerrtrcredit = true ∧ (s.msg m).msgRtrcredit = true ∧ (s.msg m).msgKiov.isSome

instance {Msg Ni Peer Pool Buf : Type} (s : LnetRouter Msg Ni Peer Pool Buf) : ∀ op, Decidable (RtrAllowed s op)
  | .recv m => inferInstanceAs (Decidable (_ ∧ _ ∧ (s.msg m).msgKiov = none))
  | .finalize _ => inferInstanceAs (Decidable (_ ∧ _ ∧ _))

end Lustre.Lnet
