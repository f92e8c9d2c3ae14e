import Mathlib
import Lustre.Basic
import Lustre.Lib.Bytes
import Lustre.Lib.Run

/-! # Link EA: the hard links of an object, packed into one buffer

`lustre/obdclass/linkea.c`. The link extended attribute of an object lists
the (parent FID, name) pairs it is linked under. The buffer is a
`link_ea_header` followed by `leh_reccount` variable-length records; a
record is a 16-bit big-endian length, the parent FID in big-endian and the
name bytes, with no alignment and no terminator.

This module is the faithful layer: the header and the cursor fields of
`struct linkea_data`, the record codec `linkea_entry_pack` /
`linkea_entry_unpack`, and the operations `linkea_data_new`,
`linkea_add_buf`, `linkea_links_find`, `linkea_del_buf` and
`linkea_overflow_shrink`, each translated from its C body. The buffer is the
list of its bytes past the header; cursors (`ld_lee`) are offsets from the
start of the buffer, as the C pointer arithmetic computes them.

`Lustre.Linkea.Spec` states what the attribute is for, a list of links, and
proves that every run of these operations refines it.
-/

namespace Lustre.Linkea

open ByteCodec

/-! ## Data -/

/-- `struct lu_fid`. -/
structure LuFid where
  fSeq : UInt64
  fOid : UInt32
  fVer : UInt32
deriving DecidableEq, Repr

/-- `struct lu_name`, carrying what `lu_name_is_valid_len` checks of every
name the callers hand to the link EA: non-empty, shorter than `INT_MAX`, and
free of `NUL` (`strlen(name) == name_len`) and of `'/'`. -/
structure LuName where
  lnName : List UInt8
  lnName_ne_nil : lnName ≠ []
  lnName_lt : lnName.length < 2147483647
  lnName_no_nul : ∀ c ∈ lnName, c ≠ 0
  lnName_no_slash : ∀ c ∈ lnName, c ≠ 47
deriving DecidableEq

/-- `ln_namelen`. -/
def LuName.lnNamelen (n : LuName) : Nat := n.lnName.length

/-- `struct link_ea_header`. The record count and the total size are kept as
numbers: the size never exceeds `MAX_LINKEA_SIZE` on any run (see the
refinement), so neither field comes near its 32- or 64-bit range. -/
structure LinkEaHeader where
  lehMagic : UInt32
  lehReccount : Nat
  lehLen : Nat
  lehOverflowTime : UInt32
  lehPadding : UInt32
deriving DecidableEq, Repr

/-- `struct linkea_data`: the header, the bytes of `ld_buf->lb_buf` past the
header, the cursor `ld_lee` (an offset from `lb_buf`, `none` for `NULL`) and
`ld_reclen`. -/
structure LinkeaData where
  ldLeh : LinkEaHeader
  ldBuf : List UInt8
  ldLee : Option Nat
  ldReclen : Nat
deriving DecidableEq, Repr

/-- `LINK_EA_MAGIC`. -/
def linkEaMagic : UInt32 := 0x11EAF1DF

/-- `sizeof(struct link_ea_header)`. -/
def linkEaHeaderSize : Nat := 24

/-- `sizeof(struct link_ea_entry)`: two length bytes and a packed FID. -/
def linkEaEntrySize : Nat := 18

/-- `MAX_LINKEA_SIZE` (`lustre_linkea.h`). -/
def maxLinkeaSize : Nat := 4096

/-- `ld_buf->lb_len`. -/
def LinkeaData.lbLen (ld : LinkeaData) : Nat := linkEaHeaderSize + ld.ldBuf.length

/-- The bytes of the buffer from the record at offset `lee` on. -/
def recordAt (buf : List UInt8) (lee : Nat) : List UInt8 :=
  buf.drop (lee - linkEaHeaderSize)

/-- The overflow stamp: `ktime_get_real_seconds()` truncated to the 32-bit
`leh_overflow_time`, bumped to 1 when the truncation is 0. -/
def overflowStamp (now : Nat) : UInt32 :=
  if UInt32.ofNat now = 0 then UInt32.ofNat now + 1 else UInt32.ofNat now

/-! ## The record codec -/

/-- `fid_cpu_to_be` and the `memcpy` into `lee_parent_fid`: the FID's three
fields, each most significant byte first. -/
def fidCpuToBe (f : LuFid) : List UInt8 :=
  toBE 8 f.fSeq.toNat ++ toBE 4 f.fOid.toNat ++ toBE 4 f.fVer.toNat

/-- The `memcpy` out of `lee_parent_fid` and `fid_be_to_cpu`. -/
def fidBeToCpu (l : List UInt8) : LuFid :=
  ⟨UInt64.ofNat (ofBE (readBytes l 0 8)), UInt32.ofNat (ofBE (readBytes l 8 4)),
    UInt32.ofNat (ofBE (readBytes l 12 4))⟩

/-- `linkea_entry_pack`: the record length and the record's bytes (the
`OBD_FAIL_CHECK` fault-injection branches are off). -/
def linkeaEntryPack (lname : LuName) (pfid : LuFid) : Nat × List UInt8 :=
  let reclen := linkEaEntrySize + lname.lnNamelen
  (reclen, [UInt8.ofNat ((reclen >>> 8) &&& 0xff), UInt8.ofNat (reclen &&& 0xff)] ++
    fidCpuToBe pfid ++ lname.lnName)

/-- `linkea_entry_unpack` of the record at offset `lee`: the record length,
the name run (`reclen - sizeof(struct link_ea_entry)` bytes from `lee_name`)
and the parent FID. -/
def linkeaEntryUnpack (buf : List UInt8) (lee : Nat) : Nat × List UInt8 × LuFid :=
  let e := recordAt buf lee
  let reclen := ((e.getD 0 0).toNat <<< 8) ||| (e.getD 1 0).toNat
  (reclen, readBytes e linkEaEntrySize (reclen - linkEaEntrySize), fidBeToCpu (readBytes e 2 16))

/-! ## The operations -/

/-- `struct lu_buf` as `linkea_data_new` receives it: `NULL` (with length 0)
or an allocated run of bytes. -/
abbrev LuBuf := Option (List UInt8)

/-- `lu_buf_check_and_alloc(buf, PAGE_SIZE)`: keep a buffer of at least a
page, else (re)allocate one, zero-filled as `OBD_ALLOC_LARGE` returns it;
`allocOk` is whether the allocation succeeds. -/
def luBufCheckAndAlloc (buf : LuBuf) (allocOk : Bool) : LuBuf :=
  match buf with
  | some l => if pageSize > l.length then (if allocOk then some (List.replicate pageSize 0) else none)
      else some l
  | none => if allocOk then some (List.replicate pageSize 0) else none

/-- `linkea_data_new`: an empty link EA in a buffer of at least a page. The
cursor starts cleared, as every caller zero-initialises its `linkea_data`. -/
def linkeaDataNew (buf : LuBuf) (allocOk : Bool) : Except Int LinkeaData :=
  match luBufCheckAndAlloc buf allocOk with
  | none => .error (-enomem)
  | some l => .ok
      { ldLeh := { lehMagic := linkEaMagic, lehReccount := 0, lehLen := linkEaHeaderSize,
                   lehOverflowTime := 0, lehPadding := 0 }
        ldBuf := l.drop linkEaHeaderSize
        ldLee := none
        ldReclen := 0 }

/-- `lu_buf_check_and_grow(ld_buf, len)` on the bytes past the header: the
old bytes kept and zeroes up to `len`; `none` when the allocation fails. -/
def luBufCheckAndGrow (buf : List UInt8) (len : Nat) (allocOk : Bool) : Option (List UInt8) :=
  if len ≤ linkEaHeaderSize + buf.length then some buf
  else if allocOk then some (buf ++ List.replicate (len - (linkEaHeaderSize + buf.length)) 0)
  else none

/-- `linkea_add_buf`: append a record, or, when the attribute would outgrow
`MAX_LINKEA_SIZE`, stamp `leh_overflow_time` and leave the records alone.
`now` is `ktime_get_real_seconds()` and `allocOk` the outcome of a buffer
growth. The sum `leh_len + reclen` is compared as numbers: a name of
`lu_name_is_valid_len` length makes the C `int` and `__u64` arithmetic
exceed the limit exactly when the numbers do. -/
def linkeaAddBuf (ld : LinkeaData) (lname : Option LuName) (pfid : Option LuFid) (now : Nat)
    (allocOk : Bool) : Int × LinkeaData :=
  match lname, pfid with
  | some lname, some pfid =>
    let leh := ld.ldLeh
    let reclen := lname.lnNamelen + linkEaEntrySize
    if leh.lehLen + reclen > maxLinkeaSize then
      (0, { ld with ldLeh := { leh with lehOverflowTime := overflowStamp now } })
    else
      match luBufCheckAndGrow ld.ldBuf (leh.lehLen + reclen) allocOk with
      | none => (-enomem, ld)
      | some buf =>
        let lee := leh.lehLen
        let (rl, bytes) := linkeaEntryPack lname pfid
        (0, { ldLeh := { leh with lehLen := leh.lehLen + rl, lehReccount := leh.lehReccount + 1 }
              ldBuf := writeBytes buf (lee - linkEaHeaderSize) bytes
              ldLee := some lee
              ldReclen := rl })
  | _, _ => (-einval, ld)

/-- Whether the record unpacked as `(reclen, tmpname, tmpfid)` is the link
`(pfid, lname)`: the test of the `linkea_links_find` loop. -/
def linkeaRecMatches (reclen : Nat) (tmpname : List UInt8) (tmpfid : LuFid) (lname : LuName)
    (pfid : LuFid) : Bool :=
  reclen - linkEaEntrySize = lname.lnNamelen && tmpfid = pfid &&
    strncmp UInt8.toNat tmpname lname.lnName (reclen - linkEaEntrySize) = 0

/-- The `for (count = 0; count < leh_reccount; count++)` loop of
`linkea_links_find`, with `left = leh_reccount - count` records still to
visit from the cursor `lee`. It returns `left` at the exit (0 when no record
matched), the cursor and `ld_reclen`. -/
def linkeaFindWalk (buf : List UInt8) (lname : LuName) (pfid : LuFid) :
    Nat → Nat → Nat → Nat × Nat × Nat
  | 0, lee, reclen => (0, lee, reclen)
  | left + 1, lee, _ =>
    let (reclen, tmpname, tmpfid) := linkeaEntryUnpack buf lee
    if linkeaRecMatches reclen tmpname tmpfid lname pfid then (left + 1, lee, reclen)
    else linkeaFindWalk buf lname pfid left (lee + reclen) reclen

/-- `linkea_links_find`: on a match the cursor is left on the record and
`ld_reclen` holds its length, for `linkea_del_buf`; otherwise both are
cleared and the result is `-ENOENT`. -/
def linkeaLinksFind (ld : LinkeaData) (lname : LuName) (pfid : LuFid) : Int × LinkeaData :=
  let n := ld.ldLeh.lehReccount
  let lee0 := if n > 0 then linkEaHeaderSize else ld.ldLee.getD 0
  let (left, lee, reclen) := linkeaFindWalk ld.ldBuf lname pfid n lee0 ld.ldReclen
  if left = 0 then (-enoent, { ld with ldLee := none, ldReclen := 0 })
  else (0, { ld with ldLee := some lee, ldReclen := reclen })

/-- `linkea_del_buf`: drop the record under the cursor and move the rest of
the records down over it. `none` is a failed assertion: no cursor, no
record, or a cursor past the shortened records, where the `memmove` length
would be negative. -/
def linkeaDelBuf (ld : LinkeaData) : Option LinkeaData :=
  match ld.ldLee with
  | none => none
  | some lee =>
    if ld.ldLeh.lehReccount = 0 then none
    else
      let len := ld.ldLeh.lehLen - ld.ldReclen
      if len < lee then none
      else
        some { ldLeh := { ld.ldLeh with lehReccount := ld.ldLeh.lehReccount - 1, lehLen := len }
               ldBuf := memmove ld.ldBuf (lee - linkEaHeaderSize)
                 (lee - linkEaHeaderSize + ld.ldReclen) (len - lee)
               ldLee := if lee ≥ len then none else some lee
               ldReclen := ld.ldReclen }

/-- The `for (count = 0; count < leh_reccount; count++)` loop of
`linkea_overflow_shrink`: walk `left` records from `lee`, adding each
length to `leh_len`; it returns `leh_len`, the cursor and `ld_reclen`. -/
def linkeaShrinkWalk (buf : List UInt8) : Nat → Nat → Nat → Nat → Nat × Nat × Nat
  | 0, len, lee, reclen => (len, lee, reclen)
  | left + 1, len, lee, _ =>
    let reclen := (linkeaEntryUnpack buf lee).1
    linkeaShrinkWalk buf left (len + reclen) (lee + reclen) reclen

/-- The byte-swapped header `linkea_overflow_shrink` converts, when the magic
reads as `__swab32(LINK_EA_MAGIC)`. -/
def lehSwab (leh : LinkEaHeader) : LinkEaHeader :=
  if leh.lehMagic = swab32 linkEaMagic then
    { leh with lehMagic := linkEaMagic
               lehReccount := (swab32 (UInt32.ofNat leh.lehReccount)).toNat
               lehOverflowTime := swab32 leh.lehOverflowTime
               lehPadding := swab32 leh.lehPadding }
  else leh

/-- `linkea_overflow_shrink`: drop the last record and stamp the overflow
time (unless no record is left), returning the new `leh_len` (0 when the
attribute became empty). `none` is the failed `LASSERT(leh_reccount > 0)`. -/
def linkeaOverflowShrink (ld : LinkeaData) (now : Nat) : Option (Int × LinkeaData) :=
  let leh := lehSwab ld.ldLeh
  if leh.lehReccount = 0 then none
  else
    let n := leh.lehReccount - 1
    if n = 0 then
      some (0, { ld with ldLeh := { leh with lehLen := linkEaHeaderSize, lehReccount := 0 } })
    else
      let (len, lee, _) := linkeaShrinkWalk ld.ldBuf n linkEaHeaderSize linkEaHeaderSize 0
      some (len, { ldLeh := { leh with lehLen := len, lehReccount := n,
                                       lehOverflowTime := overflowStamp now }
                   ldBuf := ld.ldBuf
                   ldLee := some lee
                   ldReclen := (linkeaEntryUnpack ld.ldBuf lee).1 })

/-! ## Runs -/

/-- What the callers do with a link EA once `linkea_data_new` has built it:
add a link, look one up, look one up and delete it when found (the
`linkea_links_find` then `linkea_del_buf` pairing of `mdd_links_del` and
LFSCK), or shrink an overflowing attribute. `allocOk` is the outcome of a
buffer growth and `now` the clock. -/
inductive LinkeaOp where
  | add (lname : Option LuName) (pfid : Option LuFid) (now : Nat) (allocOk : Bool)
  | find (lname : LuName) (pfid : LuFid)
  | findDel (lname : LuName) (pfid : LuFid)
  | shrink (now : Nat)

/-- One operation: its return code and the new state; `none` is a failed
assertion. -/
def linkeaStep (ld : LinkeaData) : LinkeaOp → Option (Int × LinkeaData)
  | .add lname pfid now allocOk => some (linkeaAddBuf ld lname pfid now allocOk)
  | .find lname pfid => some (linkeaLinksFind ld lname pfid)
  | .findDel lname pfid =>
    let (rc, ld') := linkeaLinksFind ld lname pfid
    if rc = 0 then (linkeaDelBuf ld').map fun ld'' => (0, ld'') else some (rc, ld')
  | .shrink now => linkeaOverflowShrink ld now

/-- A run: the return codes of the operations, in order, and the final state. -/
def linkeaRun (ld : LinkeaData) (ops : List LinkeaOp) : Option (List Int × LinkeaData) :=
  StepRun.run linkeaStep ld ops

/-- The records a walk from the first record decodes, each as
`linkea_entry_unpack` reads it: record length, name run and parent FID. -/
def linkeaDecode (buf : List UInt8) : Nat → Nat → List (Nat × List UInt8 × LuFid)
  | 0, _ => []
  | n + 1, lee =>
    let r := linkeaEntryUnpack buf lee
    r :: linkeaDecode buf n (lee + r.1)

end Lustre.Linkea
