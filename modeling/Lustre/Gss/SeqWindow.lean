import Mathlib
import Lustre.Lib.Run

/-! # GSS sequence windows

`lustre/ptlrpc/gss/sec_gss.c`. A server context keeps, per RFC 2203, the
highest sequence number it has seen and a window of `GSS_SEQ_WIN_MAIN` bits
below it, with a smaller back window behind. `gss_svc_verify_request` and
`gss_svc_unseal_request` check a request's number twice with
`gss_check_seq_num`: phase 0 before the message is verified, which sets no
bit, and phase 1 after, which records the number; a number behind the main
window goes to the back window in phase 2.

The sequence numbers, the highest ones and the window size are the `__u32`
of the source, so `*max_seq + win_size` and `seq_num + win_size` wrap as they
do there. A window, an `unsigned long` array, is read by bit number. The
spin lock makes each call one step; the message verification between the
two checks is taken to pass.
-/

namespace Lustre.Gss

/-- `GSS_SEQ_WIN_MAIN`. -/
def gssSeqWinMain : UInt32 := 2048

/-- `GSS_SEQ_WIN_BACK`. -/
def gssSeqWinBack : UInt32 := 128

/-- `struct gss_svc_seq_data`, without its lock. -/
structure GssSvcSeqData where
  ssdMaxMain : UInt32
  ssdMaxBack : UInt32
  ssdWinMain : Nat → Bool
  ssdWinBack : Nat → Bool

/-- The zeroed `gss_svc_seq_data` of a new context. -/
def GssSvcSeqData.zero : GssSvcSeqData := ⟨0, 0, fun _ => false, fun _ => false⟩

/-- `memset(window, 0, win_size / 8)`. -/
def windowClear (window : Nat → Bool) (winSize : UInt32) : Nat → Bool :=
  fun b => if b < winSize.toNat then false else window b

/-- `while (*max_seq < seq_num) { (*max_seq)++; __clear_bit(*max_seq % win_size, window); }`,
for at most `n` turns. -/
def gssAdvance (winSize seqNum : UInt32) : Nat → (Nat → Bool) → UInt32 → (Nat → Bool) × UInt32
  | 0, window, maxSeq => (window, maxSeq)
  | n + 1, window, maxSeq =>
    if maxSeq < seqNum then
      gssAdvance winSize seqNum n (Function.update window ((maxSeq + 1) % winSize).toNat false) (maxSeq + 1)
    else (window, maxSeq)

/-- `gss_do_check_seq(window, win_size, max_seq, seq_num, phase)`: the return
value, the window and the highest number. -/
def gssDoCheckSeq (window : Nat → Bool) (winSize maxSeq seqNum : UInt32) (phase : Fin 3) :
    Int × (Nat → Bool) × UInt32 :=
  if seqNum > maxSeq then
    -- 1. high above the window
    if phase = 0 then (0, window, maxSeq)
    else
      -- the loop runs `seq_num - *max_seq` turns, one per number passed over
      let (window, maxSeq) :=
        if seqNum ≥ maxSeq + winSize then (windowClear window winSize, seqNum)
        else gssAdvance winSize seqNum (seqNum - maxSeq).toNat window maxSeq
      (0, Function.update window (seqNum % winSize).toNat true, maxSeq)
  else if seqNum + winSize ≤ maxSeq then
    -- 2. low behind the window
    if phase = 0 ∨ phase = 2 then (-1, window, maxSeq) else (1, window, maxSeq)
  else
    -- 3. fit into the window
    let bit := (seqNum % winSize).toNat
    if phase = 0 then
      if window bit then (-1, window, maxSeq) else (0, window, maxSeq)
    else
      -- __test_and_set_bit
      let old := window bit
      let window := Function.update window bit true
      if old then (-1, window, maxSeq) else (0, window, maxSeq)

/-- `gss_check_seq_num(ssd, seq_num, set)`. -/
def gssCheckSeqNum (ssd : GssSvcSeqData) (seqNum : UInt32) (set : Bool) : Int × GssSvcSeqData :=
  if !set then
    -- phase 0 testing
    let (rc, window, maxSeq) := gssDoCheckSeq ssd.ssdWinMain gssSeqWinMain ssd.ssdMaxMain seqNum 0
    (rc, { ssd with ssdWinMain := window, ssdMaxMain := maxSeq })
  else
    -- phase 1 checking main window
    let (rc, window, maxSeq) := gssDoCheckSeq ssd.ssdWinMain gssSeqWinMain ssd.ssdMaxMain seqNum 1
    let ssd := { ssd with ssdWinMain := window, ssdMaxMain := maxSeq }
    if rc = -1 ∨ rc = 0 then (rc, ssd)
    else
      -- phase 2 checking back window
      let (rc, window, maxSeq) := gssDoCheckSeq ssd.ssdWinBack gssSeqWinBack ssd.ssdMaxBack seqNum 2
      (rc, { ssd with ssdWinBack := window, ssdMaxBack := maxSeq })

/-- The sequence checks of `gss_svc_verify_request` (and of
`gss_svc_unseal_request`) on a context that is not reverse: whether the
request passes both, and the sequence data after. -/
def gssSvcCheckSeq (ssd : GssSvcSeqData) (seqNum : UInt32) : Bool × GssSvcSeqData :=
  let (rc, ssd) := gssCheckSeqNum ssd seqNum false
  if rc ≠ 0 then (false, ssd)
  else
    let (rc, ssd) := gssCheckSeqNum ssd seqNum true
    (decide (rc = 0), ssd)

/-- One request on the context, as a step. -/
def gssSeqStep (ssd : GssSvcSeqData) (seqNum : UInt32) : Option (Bool × GssSvcSeqData) :=
  some (gssSvcCheckSeq ssd seqNum)

end Lustre.Gss
