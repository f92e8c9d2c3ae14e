import Mathlib
import Lustre.PackGeneric

/-! # Building RPC messages: sizes, layout, shrinking and growing buffers

`lustre/ptlrpc/pack_generic.c`, the sending side. `lustre_msg_size_v2`
computes the size of a message from its buffer lengths, `lustre_init_msg_v2`
writes the header and copies the buffers in, and `lustre_shrink_msg_v2` and
`lustre_grow_msg_v2` change the length of one buffer, moving the buffers
after it with `memmove`.

The header is the record `LustreMsgV2` and the message memory a byte list
from the start of the message, as in the receiving side. The widths are the
source's: sizes and offsets are `__u32` (`UInt32`), `cfs_size_round` is in
`size_t`, `tail_len` is an `int` (`narrowInt`) that `memmove` takes as a
`size_t`, and the pointers of the copy loop of `lustre_init_msg_v2` are
advanced without wrapping. An `int count` is an `Int`; a failed `LASSERT` is
`none`.
-/

namespace Lustre.PackGeneric

open ByteCodec CArith

/-- `lustre_msg_size_v2(count, lengths)`: the header, then each length
rounded (in `size_t`) and added to the `__u32` size. -/
def lustreMsgSizeV2 (count : Int) (lengths : List UInt32) : Option UInt32 :=
  if count ≤ 0 then none
  else
    some ((List.range count.toNat).foldl
      (fun size i => (size.toUInt64 + cfsSizeRound (lengths.getD i 0).toUInt64).toUInt32)
      (lustreMsgHdrSizeV2 (UInt32.ofInt count)))

/-- `lustre_packed_msg_size(msg)`: `lm_bufcount` goes to the `int count`;
another magic is reported and gives 0. -/
def lustrePackedMsgSize (m : LustreMsgV2) : Option UInt32 :=
  if m.lmMagic = lustreMsgMagicV2 then lustreMsgSizeV2 (narrowInt m.lmBufcount.toNat) m.lmBuflens
  else some 0

/-- The copy loop of `lustre_init_msg_v2` from buffer `i` on, with `k`
buffers left and `ptr` the offset it writes at: `if (tmp) memcpy(ptr, tmp,
lens[i]); ptr += cfs_size_round(lens[i]);`. A `NULL` buffer is `none`. -/
def initMsgBufs (lens : List UInt32) (bufs : List (Option (List UInt8))) :
    Nat → Nat → Nat → List UInt8 → List UInt8
  | 0, _, _, mem => mem
  | k + 1, i, ptr, mem =>
    let len := lens.getD i 0
    let mem := match bufs.getD i none with
      | some tmp => writeBytes mem ptr (readBytes tmp 0 len.toNat)
      | none => mem
    initMsgBufs lens bufs k (i + 1) (ptr + (cfsSizeRound len.toUInt64).toNat) mem

/-- `lustre_init_msg_v2(msg, count, lens, bufs)`: the header and the memory
after the call; `bufs = none` is `bufs == NULL`. The entries of
`lm_buflens[]` past `count` are left as they were. -/
def lustreInitMsgV2 (m : LustreMsgV2) (mem : List UInt8) (count : Int) (lens : List UInt32)
    (bufs : Option (List (Option (List UInt8)))) : Option (LustreMsgV2 × List UInt8) :=
  if count ≤ 0 then none
  else
    -- "XXX: lm_secflvr uninitialized here"
    let m := { m with
      lmBufcount := UInt32.ofInt count
      lmMagic := lustreMsgMagicV2
      lmBuflens := (List.range count.toNat).map (fun i => lens.getD i 0) ++ m.lmBuflens.drop count.toNat }
    match bufs with
    | none => some (m, mem)
    | some bufs =>
      some (m, initMsgBufs lens bufs count.toNat 0 (lustreMsgHdrSizeV2 (UInt32.ofInt count)).toNat mem)

/-- `return lustre_msg_size_v2(msg->lm_bufcount, msg->lm_buflens);` from a
function that returns an `int`. -/
def msgSizeRet (m : LustreMsgV2) : Option Int :=
  (lustreMsgSizeV2 (narrowInt m.lmBufcount.toNat) m.lmBuflens).map fun size => narrowInt size.toNat

/-- The `int tail_len` summed over the buffers after `segment`. -/
def tailLen (m : LustreMsgV2) (segment : UInt32) : Int :=
  narrowInt ((List.range (m.lmBufcount.toNat - (segment.toNat + 1))).foldl
    (fun len j => len + (cfsSizeRound (m.buflen (segment.toNat + 1 + j)).toUInt64).toNat) 0)

/-- `if (msg->lm_bufcount > segment + 1) { tail = lustre_msg_buf_v2(msg,
segment + 1, 0); tail_len = ...; }`: `some none` for no tail, `none` for a
failed `LASSERT` in `lustre_msg_buf_v2`. -/
def msgTail (m : LustreMsgV2) (segment : UInt32) : Option (Option (UInt32 × Int)) :=
  if m.lmBufcount > segment + 1 then
    (lustreMsgBufV2 m (segment + 1) 0).map fun tail => tail.map fun off => (off, tailLen m segment)
  else some none

/-- `msg->lm_buflens[segment] = newlen`. -/
def setBuflen (m : LustreMsgV2) (segment newlen : UInt32) : LustreMsgV2 :=
  { m with lmBuflens := m.lmBuflens.set segment.toNat newlen }

/-- `lustre_shrink_msg_v2(msg, segment, newlen, move_data)`: the header, the
memory and the size returned. -/
def lustreShrinkMsgV2 (m : LustreMsgV2) (mem : List UInt8) (segment newlen : UInt32) (moveData : Bool) :
    Option (LustreMsgV2 × List UInt8 × Int) :=
  if m.lmBufcount ≤ segment then none
  else if m.buflen segment.toNat < newlen then none
  else if m.buflen segment.toNat = newlen then (msgSizeRet m).map fun ret => (m, mem, ret)
  else
    let tail := if moveData then msgTail m segment else some none
    match tail with
    | none => none
    | some tail =>
      let m := setBuflen m segment newlen
      let mem := match tail with
        | some (tailOff, len) =>
          if len ≠ 0 then
            match lustreMsgBufV2 m (segment + 1) 0 with
            | some (some newpos) =>
              if newpos > tailOff then none
              else if newpos ≠ tailOff then
                some (memmove mem newpos.toNat tailOff.toNat (UInt64.ofInt len).toNat)
              else some mem
            | _ => none
          else some mem
        | none => some mem
      mem.bind fun mem => (msgSizeRet m).map fun ret => (m, mem, ret)

/-- `lustre_grow_msg_v2(msg, segment, newlen)`: the buffers after the
segment are always moved, with no check of where to. -/
def lustreGrowMsgV2 (m : LustreMsgV2) (mem : List UInt8) (segment newlen : UInt32) :
    Option (LustreMsgV2 × List UInt8 × Int) :=
  if m.lmBufcount ≤ segment then none
  else if m.buflen segment.toNat > newlen then none
  else if m.buflen segment.toNat = newlen then (msgSizeRet m).map fun ret => (m, mem, ret)
  else
    match msgTail m segment with
    | none => none
    | some tail =>
      let m := setBuflen m segment newlen
      let mem := match tail with
        | some (tailOff, len) =>
          if len ≠ 0 then
            match lustreMsgBufV2 m (segment + 1) 0 with
            | some (some newpos) => some (memmove mem newpos.toNat tailOff.toNat (UInt64.ofInt len).toNat)
            | _ => none
          else some mem
        | none => some mem
      mem.bind fun mem => (msgSizeRet m).map fun ret => (m, mem, ret)

end Lustre.PackGeneric
