import Mathlib
import Lustre.Basic
import Lustre.Lib.Bytes
import Lustre.Lib.CArith

/-! # Received RPC messages: unpacking and buffer accessors

`lustre/ptlrpc/pack_generic.c`. A `struct lustre_msg_v2` is eight 32-bit
header words, the array `lm_buflens[lm_bufcount]` of buffer lengths, and then
the buffers, each padded to a multiple of 8 bytes. A received message is
checked once by `lustre_unpack_msg_v2`; afterwards `lustre_msg_buf_v2` and
`lustre_msg_string` hand out pointers into it, trusting the lengths the check
accepted.

This module is the faithful layer. The header is the record of words the
CPU reads (after the in-place byte swap of a message from a host of the
other byte order); the message memory the string accessor scans is a byte
list indexed from the start of the message, where reading past its end is a
fault. C's mixed widths are kept: `cfs_size_round` works in `size_t`
(`UInt64`), its result is stored in an `int` by `lustre_unpack_msg_v2`
(`CArith.narrowInt`) and in a `__u32` by `lustre_msg_buf_v2` (`UInt32`).
`PTLRPC_MAX_BUFLEN` depends on the page size the kernel is built with and is
a parameter, `maxBuflen`.
-/

namespace Lustre.PackGeneric

open ByteCodec CArith

/-! ## Data -/

/-- `struct lustre_msg_v2` as the receiver's CPU reads it: the header words,
then the words of `lm_buflens[]`. -/
structure LustreMsgV2 where
  lmBufcount : UInt32
  lmSecflvr : UInt32
  lmMagic : UInt32
  lmRepsize : UInt32
  lmCksum : UInt32
  lmFlags : UInt32
  lmOpc : UInt32
  lmPadding3 : UInt32
  lmBuflens : List UInt32
  deriving DecidableEq, Repr

/-- The word `lm_buflens[i]`. -/
def LustreMsgV2.buflen (m : LustreMsgV2) (i : Nat) : UInt32 := m.lmBuflens.getD i 0

def lustreMsgMagicV2 : UInt32 := 0x0BD00BD3
def lustreMsgMagicV2Swabbed : UInt32 := 0xD30BD00B

/-- `PTLRPC_MAX_BUFCOUNT`: the bits of the `__u32` swab masks. -/
def ptlrpcMaxBufcount : Nat := 32

/-- `offsetof(struct lustre_msg_v2, lm_buflens[count])`, computed in `size_t`. -/
def buflensOffset (count : UInt32) : UInt64 := 32 + 4 * count.toUInt64

/-- `cfs_size_round`: round up to a multiple of 8, in `size_t`. -/
def cfsSizeRound (val : UInt64) : UInt64 := (val + 7) &&& ~~~0x7

/-- `lustre_msg_hdr_size_v2`: the header and the length array, rounded, as
the `__u32` the function returns. -/
def lustreMsgHdrSizeV2 (count : UInt32) : UInt32 := (cfsSizeRound (buflensOffset count)).toUInt32

/-! ## `lustre_unpack_msg_v2` -/

/-- The header words `lustre_unpack_msg_v2` byte-swaps in place;
`lm_padding_3` is left alone. -/
def swabHeader (m : LustreMsgV2) : LustreMsgV2 :=
  { m with lmMagic := swab32 m.lmMagic, lmBufcount := swab32 m.lmBufcount,
           lmSecflvr := swab32 m.lmSecflvr, lmRepsize := swab32 m.lmRepsize,
           lmCksum := swab32 m.lmCksum, lmFlags := swab32 m.lmFlags, lmOpc := swab32 m.lmOpc }

/-- `buflen = cfs_size_round(m->lm_buflens[i])`: the rounded length, computed
in `size_t` and stored in an `int`. -/
def roundedBuflen (b : UInt32) : Int := narrowInt (cfsSizeRound b.toUInt64).toNat

/-- `if (swabbed) __swab32s(&m->lm_buflens[i])`. -/
def swabBuflen (swabbed : Bool) (lens : List UInt32) (i : Nat) : List UInt32 :=
  if swabbed then lens.modify i swab32 else lens

/-- The loop over `lm_buflens[]`, at index `i` with `k` entries left: swab the
entry in place if the message is swabbed, round it into an `int`, reject it
when negative or above `PTLRPC_MAX_BUFLEN`, and add it to `required_len`.
The lengths come back as the loop left them, also when it rejects one. -/
def unpackBuflens (maxBuflen : Nat) (swabbed : Bool) :
    Nat → Nat → Int → List UInt32 → Option Int × List UInt32
  | 0, _, requiredLen, lens => (some requiredLen, lens)
  | k + 1, i, requiredLen, lens =>
    let lens := swabBuflen swabbed lens i
    let buflen := roundedBuflen (lens.getD i 0)
    if buflen < 0 ∨ buflen > maxBuflen then (none, lens)
    else unpackBuflens maxBuflen swabbed k (i + 1) (requiredLen + buflen) lens

/-- `lustre_unpack_msg_v2(m, len)`: `-EINVAL`, or whether the message was
byte-swapped (1) or not (0); with the message as the in-place swaps left it.
`required_len` is an `int`; a sum of at most `PTLRPC_MAX_BUFCOUNT` terms each
checked against `PTLRPC_MAX_BUFLEN` stays far inside its range, so it is an
`Int` here. -/
def lustreUnpackMsgV2 (maxBuflen : Nat) (m : LustreMsgV2) (len : Int) : Int × LustreMsgV2 :=
  if len < (lustreMsgHdrSizeV2 0).toNat then (-einval, m)
  else
    let swabbed : Bool := m.lmMagic == lustreMsgMagicV2Swabbed
    let m := if swabbed then swabHeader m else m
    if m.lmBufcount = 0 ∨ m.lmBufcount.toNat > ptlrpcMaxBufcount then (-einval, m)
    else
      let requiredLen : Int := (lustreMsgHdrSizeV2 m.lmBufcount).toNat
      if len < requiredLen then (-einval, m)
      else
        match unpackBuflens maxBuflen swabbed m.lmBufcount.toNat 0 requiredLen m.lmBuflens with
        | (none, lens) => (-einval, { m with lmBuflens := lens })
        | (some requiredLen, lens) =>
          if len < requiredLen ∨ requiredLen > maxBuflen then (-einval, { m with lmBuflens := lens })
          else (if swabbed then 1 else 0, { m with lmBuflens := lens })

/-- `__lustre_unpack_msg`: a message too short to hold `lm_magic` is refused
before `lustre_unpack_msg_v2` looks inside. -/
def lustreUnpackMsg (maxBuflen : Nat) (m : LustreMsgV2) (len : Int) : Int × LustreMsgV2 :=
  if len < 12 then (-einval, m) else lustreUnpackMsgV2 maxBuflen m len

/-! ## Accessors -/

/-- The offset of buffer `n`: the header, then the rounded lengths before
it, summed in the `__u32` `offset`. -/
def bufOffset (m : LustreMsgV2) (n : Nat) : UInt32 :=
  (List.range n).foldl (fun offset i => (offset.toUInt64 + cfsSizeRound (m.buflen i).toUInt64).toUInt32)
    (lustreMsgHdrSizeV2 m.lmBufcount)

/-- `lustre_msg_buf_v2(m, n, min_size)`: `none` for a failed `LASSERT`,
`some none` for `NULL`, `some (some off)` for the pointer `m + off`. -/
def lustreMsgBufV2 (m : LustreMsgV2) (n minSize : UInt32) : Option (Option UInt32) :=
  if m.lmBufcount = 0 then none
  else if n ≥ m.lmBufcount then some none
  else if m.buflen n.toNat < minSize then some none
  else some (some (bufOffset m n.toNat))

/-- `lustre_msg_buflen_v2`. -/
def lustreMsgBuflenV2 (m : LustreMsgV2) (n : UInt32) : UInt32 :=
  if n ≥ m.lmBufcount then 0 else m.buflen n.toNat

/-- `lustre_msg_string(m, index, max_len)` over the message memory `mem`:
`none` for a fault (a failed `LASSERTF`, or `strnlen` reading past the
message), `some none` for `NULL`, `some (some off)` for the string at
`m + off`. -/
def lustreMsgString (maxBuflen : Nat) (m : LustreMsgV2) (mem : List UInt8)
    (index maxLen : UInt32) : Option (Option UInt32) :=
  if m.lmMagic ≠ lustreMsgMagicV2 then none
  else
    match lustreMsgBufV2 m index 0 with
    | none => none
    | some none => some none
    | some (some str) =>
      let blen := lustreMsgBuflenV2 m index
      match strnlen mem str.toNat blen.toNat with
      | none => none
      | some slen =>
        -- not NUL terminated, or an invalid length
        if slen = blen.toNat then some none
        else if blen.toNat > maxBuflen then some none
        -- `max_len == 0`: the string fills the buffer
        else if maxLen = 0 then (if slen ≠ blen.toNat - 1 then some none else some (some str))
        else if slen > maxLen.toNat then some none
        else some (some str)

end Lustre.PackGeneric
