import Mathlib
import Lustre.Basic
import Lustre.Lib.CArith
import Lustre.Lib.Run

/-! # Matching incoming messages to memory descriptors

`lnet/lnet/lib-md.c`, `lib-ptl.c` and `lib-move.c`. `lnet_md_build` turns
the user's `struct lnet_md` into a `struct lnet_libmd`: a contiguous buffer
is cut at page boundaries, a `bio_vec` array is copied, and the MD's length
is the sum of the fragments. When a PUT or GET arrives, `lnet_try_match_md`
checks the MD against the header — operation, source, match bits — and, if it
matches, chooses where the data goes: at the MD's own offset, or at the
offset the peer sent when the MD has `LNET_MD_MANAGE_REMOTE`; the length is
what is left of the MD (or `md_max_size`), the payload's if it fits. The
message is attached there and `lnet_ni_recv` later asks the LND to receive
into the fragments that `lnet_extract_kiov` cuts out of the MD.

The fields are the `unsigned int` and `int` of the source: `UInt32` where
unsigned, `Int` where signed, and the conversions between them are the C
ones. A kernel pointer is a `Nat`; the pages behind it are not modelled,
only each fragment's offset in its page and its length. An `LASSERT` that
fails is `none`. `md_refcount`, the handles, the event and the portal's list
of MEs are left out: one MD, attached to one ME, meets a sequence of
headers, and once unlinked it is no longer matched.
-/

namespace Lustre.Lnet

/-- `LNET_MAX_IOV`. -/
def lnetMaxIov : Nat := 256

/-- `LNET_MD_OP_PUT`. -/
def lnetMdOpPut : UInt32 := 0x1

/-- `LNET_MD_OP_GET`. -/
def lnetMdOpGet : UInt32 := 0x2

/-- `LNET_MD_MANAGE_REMOTE`. -/
def lnetMdManageRemote : UInt32 := 0x4

/-- `LNET_MD_TRUNCATE`. -/
def lnetMdTruncate : UInt32 := 0x10

/-- `LNET_MD_MAX_SIZE`. -/
def lnetMdMaxSize : UInt32 := 0x80

/-- `LNET_MD_KIOV`. -/
def lnetMdKiov : UInt32 := 0x100

/-- `LNET_MD_THRESH_INF`. -/
def lnetMdThreshInf : Int := -1

/-- `LNET_MD_FLAG_ZOMBIE`. -/
def lnetMdFlagZombie : UInt32 := 0x1

/-- `LNET_MD_FLAG_AUTO_UNLINK`. -/
def lnetMdFlagAutoUnlink : UInt32 := 0x2

/-- `LNET_PID_ANY`. -/
def lnetPidAny : UInt32 := 0xFFFFFFFF

/-- `LNET_MATCHMD_NONE`. -/
def lnetMatchmdNone : UInt32 := 0x1

/-- `LNET_MATCHMD_OK`. -/
def lnetMatchmdOk : UInt32 := 0x2

/-- `LNET_MATCHMD_DROP`. -/
def lnetMatchmdDrop : UInt32 := 0x4

/-- `LNET_MATCHMD_EXHAUSTED`. -/
def lnetMatchmdExhausted : UInt32 := 0x8

/-- A `struct bio_vec`: its offset in its page and its length. -/
structure BioVec where
  bvOffset : UInt32
  bvLen : UInt32
  deriving DecidableEq, Repr

/-- `struct lnet_md`, as the user fills it in. `start` is the address, `none`
for `NULL`; with `LNET_MD_KIOV`, `startKiov` is the `bio_vec` array stored
there. -/
structure LnetMd where
  start : Option Nat
  startKiov : List BioVec
  length : UInt32
  threshold : Int
  maxSize : Int
  options : UInt32
  deriving DecidableEq, Repr

/-- `struct lnet_libmd`, without its lists, handles and reference count. -/
structure LnetLibmd where
  mdOffset : UInt32
  mdLength : UInt32
  mdMaxSize : UInt32
  mdThreshold : Int
  mdOptions : UInt32
  mdFlags : UInt32
  mdKiov : List BioVec
  deriving DecidableEq, Repr

/-- The match criteria of a `struct lnet_me`. -/
structure LnetMe where
  meMatchNid : UInt64
  meMatchPid : UInt32
  meMatchBits : UInt64
  meIgnoreBits : UInt64
  deriving DecidableEq, Repr

/-- `struct lnet_match_info`, as `lnet_parse_put` and `lnet_parse_get` fill it
in from the header: `mi_rlength` is `payload_length` or `sink_length`, and
`mi_roffset` is `put.offset` or `get.src_offset`. -/
structure LnetMatchInfo where
  miMbits : UInt64
  miNid : UInt64
  miPid : UInt32
  miOpc : UInt32
  miRlength : UInt32
  miRoffset : UInt32
  deriving DecidableEq, Repr

/-! ## `lnet_md_build` -/

/-- `lnet_md_validate(umd)`. -/
def lnetMdValidate (umd : LnetMd) : Bool :=
  !(umd.start.isNone && umd.length != 0) &&
    !((umd.options &&& lnetMdKiov) != 0 && umd.length.toNat > lnetMaxIov)

/-- The loop of `lnet_md_build` that cuts a contiguous buffer at page
boundaries, for at most `fuel` turns. `len` is the `int` copy of
`umd->length`: a turn takes at least one byte off a positive `len`, and a
negative one ends after one turn, so `umd->length + 1` turns are enough. -/
def lnetSplitPages (pa : Nat) (len : Int) : Nat → List BioVec
  | 0 => []
  | fuel + 1 =>
    if len = 0 then []
    else
      let plen : Int := min len (pageSize - pa % pageSize : Nat)
      ⟨UInt32.ofNat (pa % pageSize), UInt32.ofInt plen⟩ :: lnetSplitPages (pa + plen.toNat) (len - plen) fuel

/-- `lnet_md_build(umd, unlink)`, where `unlink` is whether it is
`LNET_UNLINK`; `none` for `ERR_PTR(-EINVAL)`. The allocation is taken to
succeed. -/
def lnetMdBuild (umd : LnetMd) (unlink : Bool) : Option LnetLibmd :=
  if !lnetMdValidate umd then none
  else
    let md : LnetLibmd :=
      { mdOffset := 0, mdLength := 0, mdMaxSize := UInt32.ofInt umd.maxSize, mdThreshold := umd.threshold,
        mdOptions := umd.options, mdFlags := if unlink then lnetMdFlagAutoUnlink else 0, mdKiov := [] }
    if umd.options &&& lnetMdKiov != 0 then
      let kiov := umd.startKiov.take umd.length.toNat
      -- bv_offset + bv_len > PAGE_SIZE, in unsigned int
      if kiov.any (fun v => v.bvOffset + v.bvLen > UInt32.ofNat pageSize) then none
      else
        -- total_length is an int that each unsigned bv_len is added to
        let totalLength : Int := CArith.narrowInt (kiov.map (·.bvLen.toNat)).sum
        if umd.options &&& lnetMdMaxSize != 0 ∧ (umd.maxSize < 0 ∨ umd.maxSize > totalLength) then none
        else some { md with mdLength := UInt32.ofInt totalLength, mdKiov := kiov }
    else
      let len : Int := CArith.narrowInt umd.length.toNat
      let kiov := lnetSplitPages (umd.start.getD 0) len (umd.length.toNat + 1)
      if umd.options &&& lnetMdMaxSize != 0 ∧ (umd.maxSize < 0 ∨ umd.maxSize > len) then none
      else some { md with mdLength := UInt32.ofInt len, mdKiov := kiov, mdOptions := umd.options ||| lnetMdKiov }

/-! ## `lnet_try_match_md` -/

/-- `lnet_md_exhausted(md)`. -/
def lnetMdExhausted (md : LnetLibmd) : Bool :=
  md.mdThreshold == 0 || (md.mdOptions &&& lnetMdMaxSize != 0 && md.mdOffset + md.mdMaxSize > md.mdLength)

/-- `lnet_msg_attach_md(msg, md, offset, mlen)`, on the MD: one operation
less. -/
def lnetMsgAttachMd (md : LnetLibmd) : Option LnetLibmd :=
  if md.mdThreshold ≠ lnetMdThreshInf then
    if md.mdThreshold > 0 then some { md with mdThreshold := md.mdThreshold - 1 } else none
  else some md

/-- `lnet_md_unlink(md)`, on the MD: flagged a zombie and detached from its
ME. -/
def lnetMdUnlink (md : LnetLibmd) : LnetLibmd :=
  if md.mdFlags &&& lnetMdFlagZombie = 0 then { md with mdFlags := md.mdFlags ||| lnetMdFlagZombie } else md

/-- The part of `lnet_try_match_md` after the match: attach the message at
`offset` for `mlength` bytes, move the MD's offset past them, and unlink an
exhausted MD that should be. -/
def lnetCommitMd (md : LnetLibmd) (offset mlength : UInt32) :
    Option (UInt32 × Option (UInt32 × UInt32) × LnetLibmd) :=
  (lnetMsgAttachMd md).map fun md =>
    let md := { md with mdOffset := offset + mlength }
    if !lnetMdExhausted md then (lnetMatchmdOk, some (offset, mlength), md)
    else
      let md := if md.mdFlags &&& lnetMdFlagAutoUnlink != 0 then lnetMdUnlink md else md
      (lnetMatchmdOk ||| lnetMatchmdExhausted, some (offset, mlength), md)

/-- `lnet_try_match_md(md, info, msg)` for the MD's ME `me`: the result
flags, where the message is attached (offset and length) if it is, and the
MD after. -/
def lnetTryMatchMd (md : LnetLibmd) (me : LnetMe) (info : LnetMatchInfo) :
    Option (UInt32 × Option (UInt32 × UInt32) × LnetLibmd) :=
  -- MD exhausted
  if lnetMdExhausted md then some (lnetMatchmdNone ||| lnetMatchmdExhausted, none, md)
  -- mismatched MD op
  else if md.mdOptions &&& info.miOpc = 0 then some (lnetMatchmdNone, none, md)
  -- mismatched ME nid/pid?
  else if me.meMatchNid ≠ lnetNidAny ∧ me.meMatchNid ≠ info.miNid then some (lnetMatchmdNone, none, md)
  else if me.meMatchPid ≠ lnetPidAny ∧ me.meMatchPid ≠ info.miPid then some (lnetMatchmdNone, none, md)
  -- mismatched ME matchbits?
  else if (me.meMatchBits ^^^ info.miMbits) &&& ~~~me.meIgnoreBits ≠ 0 then some (lnetMatchmdNone, none, md)
  else
    let offset := if md.mdOptions &&& lnetMdManageRemote = 0 then md.mdOffset else info.miRoffset
    let mlength? : Option UInt32 :=
      if md.mdOptions &&& lnetMdMaxSize ≠ 0 then
        -- LASSERT(md->md_offset + mlength <= md->md_length)
        if md.mdOffset + md.mdMaxSize ≤ md.mdLength then some md.mdMaxSize else none
      else some (md.mdLength - offset)
    mlength?.bind fun mlength =>
      -- fits in allowed space
      if info.miRlength ≤ mlength then lnetCommitMd md offset info.miRlength
      -- this packet _really_ is too big
      else if md.mdOptions &&& lnetMdTruncate = 0 then some (lnetMatchmdDrop, none, md)
      else lnetCommitMd md offset mlength

/-- One incoming header meeting the MD: a zombie MD is detached from its ME
and matches nothing. -/
def lnetMatchStep (me : LnetMe) (md : LnetLibmd) (info : LnetMatchInfo) :
    Option ((UInt32 × Option (UInt32 × UInt32)) × LnetLibmd) :=
  if md.mdFlags &&& lnetMdFlagZombie ≠ 0 then some ((lnetMatchmdNone, none), md)
  else (lnetTryMatchMd md me info).map fun (rc, att, md) => ((rc, att), md)

/-! ## `lnet_extract_kiov` -/

/-- The copying loop of `lnet_extract_kiov`: the fragments from `offset` in
the first of `src` on, for `len` bytes, with `niov` the number of the next
one. -/
def lnetExtractCopy (dstNiov : Nat) : List BioVec → UInt32 → UInt32 → Nat → Option (List BioVec)
  | [], _, _, _ => none
  | v :: src, offset, len, niov =>
    if niov > dstNiov then none
    else
      let fragLen := v.bvLen - offset
      let dstOffset := v.bvOffset + offset
      if len ≤ fragLen then
        if dstOffset + len ≤ UInt32.ofNat pageSize then some [⟨dstOffset, len⟩] else none
      else if dstOffset + fragLen ≤ UInt32.ofNat pageSize then
        (lnetExtractCopy dstNiov src 0 (len - fragLen) (niov + 1)).map (⟨dstOffset, fragLen⟩ :: ·)
      else none

/-- The loop of `lnet_extract_kiov` that skips the fragments before
`offset`. -/
def lnetExtractSkip (dstNiov : Nat) (len : UInt32) : List BioVec → UInt32 → Option (List BioVec)
  | [], _ => none
  | v :: src, offset =>
    if offset ≥ v.bvLen then
      -- LASSERT(src_niov > 0) after the step
      if src = [] then none else lnetExtractSkip dstNiov len src (offset - v.bvLen)
    else lnetExtractCopy dstNiov (v :: src) offset len 1

/-- `lnet_extract_kiov(dst_niov, dst, src_niov, src, offset, len)`: the
fragments it writes to `dst`. -/
def lnetExtractKiov (dstNiov : Nat) (src : List BioVec) (offset len : UInt32) : Option (List BioVec) :=
  if len = 0 then some []
  else lnetExtractSkip dstNiov len src offset

end Lustre.Lnet
