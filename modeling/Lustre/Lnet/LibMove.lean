import Mathlib
import Lustre.Lib.Gather
import Lustre.Lnet.MatchMd

/-! # Copying between fragment vectors

`lnet/lnet/lib-move.c`: `lnet_copy_iov2iov`, `lnet_copy_kiov2kiov`,
`lnet_copy_kiov2iov` and `lnet_copy_iov2kiov` copy `nob` bytes from offset
`soffset` of a source vector of fragments to offset `doffset` of a
destination vector. Each first skips the whole fragments before its offset,
and then walks both vectors in lock step: a turn copies the `min3` of what
is left of the two current fragments and of `nob`, and moves each cursor on
within its fragment, or to the start of the next one once it is used up.

The four share that loop and differ in the fragments they walk, so the loop
is modelled once over `Gather.Frag`. A `kvec` is `iov_len` bytes from
`iov_base`, `iov_len` a `size_t`; a `bio_vec` is `bv_len` bytes from
`bv_offset` in its page, both `unsigned int`. Offsets, `this_nob` and `nob`
are `unsigned int`; a fragment's length is cast to `unsigned int` for
`min3` and compared, as a `size_t` for a `kvec`, with the `unsigned int` sum
`offset + this_nob` to move the cursor. `kmap` of a page is its address
`bvPage`. The code keeps the mapped address of the current fragment from
turn to turn and moves it on by `this_nob`: it is always the page's address
plus `bv_offset` plus the cursor's offset, and is computed so here. Memory
maps addresses to bytes and `memcpy` is a `Gather.copyAt`. An `LASSERT`
that fails is `none`; the loop, which need not end, runs on fuel and is
`none` when the fuel runs out.
-/

namespace Lustre.Lnet

open Gather

/-- `struct kvec`. -/
structure Kvec where
  iovBase : Nat
  iovLen : UInt64
  deriving DecidableEq, Repr

/-- A `struct bio_vec` with its page; `bvPage` is the address
`kmap(bv_page)` returns. -/
structure PagedBioVec extends BioVec where
  bvPage : Nat
  deriving DecidableEq, Repr

/-- The `bio_vec`s of a vector on the pages given, one for each. -/
def onPages (pages : List Nat) (kiov : List BioVec) : List PagedBioVec :=
  List.zipWith (fun p v => ⟨v, p⟩) pages kiov

/-- The bytes a `kvec` names. -/
def Kvec.frag (v : Kvec) : Frag := ⟨v.iovBase, v.iovLen.toNat⟩

/-- The bytes a `bio_vec` names in its mapped page. -/
def PagedBioVec.frag (v : PagedBioVec) : Frag := ⟨v.bvPage + v.bvOffset.toNat, v.bvLen.toNat⟩

/-- The state of the copying loop: the fragments from the current one on
and the offset in it, for each side; the bytes still to copy; the memory. -/
structure CopyCursor where
  dst : List Frag
  doff : UInt32
  src : List Frag
  soff : UInt32
  nob : UInt32
  mem : Nat → UInt8

/-- `memcpy(daddr, saddr, n)`. -/
def memcpy (mem : Nat → UInt8) (daddr saddr n : Nat) : Nat → UInt8 :=
  copyAt mem (List.range' daddr n) (List.range' saddr n)

/-- The loop that skips the complete fragments before `offset`. -/
def lnetSkipFrags : List Frag → UInt32 → Option (List Frag × UInt32)
  -- LASSERT(niov > 0)
  | [], _ => none
  | f :: fs, offset =>
    if offset.toNat ≥ f.len then lnetSkipFrags fs (offset - UInt32.ofNat f.len)
    else some (f :: fs, offset)

/-- Move a cursor `thisNob` bytes on: within its fragment while some of it
is left, else to the start of the next fragment. -/
def lnetAdvance (f : Frag) (fs : List Frag) (offset thisNob : UInt32) : List Frag × UInt32 :=
  if f.len > (offset + thisNob).toNat then (f :: fs, offset + thisNob) else (fs, 0)

/-- One turn of the copying loop. -/
def lnetCopyTurn : CopyCursor → Option CopyCursor
  | ⟨d :: dst, doff, s :: src, soff, nob, mem⟩ =>
    let thisNob := min (min (UInt32.ofNat d.len - doff) (UInt32.ofNat s.len - soff)) nob
    let (dst', doff') := lnetAdvance d dst doff thisNob
    let (src', soff') := lnetAdvance s src soff thisNob
    some ⟨dst', doff', src', soff', nob - thisNob,
      memcpy mem (d.addr + doff.toNat) (s.addr + soff.toNat) thisNob.toNat⟩
  -- LASSERT(ndiov > 0); LASSERT(nsiov > 0)
  | _ => none

/-- The copying loop, a turn and then again while `nob > 0`. -/
def lnetCopyLoop : Nat → CopyCursor → Option CopyCursor
  | 0, _ => none
  | fuel + 1, c => (lnetCopyTurn c).bind fun c => if c.nob > 0 then lnetCopyLoop fuel c else some c

/-- The body the four copies share, from `nob == 0` to the end of the loop:
the memory afterwards. -/
def lnetCopyFrags (fuel : Nat) (dst : List Frag) (doffset : UInt32) (src : List Frag) (soffset nob : UInt32)
    (mem : Nat → UInt8) : Option (Nat → UInt8) :=
  if nob = 0 then some mem
  else do
    let (dst, doff) ← lnetSkipFrags dst doffset
    let (src, soff) ← lnetSkipFrags src soffset
    let c ← lnetCopyLoop fuel ⟨dst, doff, src, soff, nob, mem⟩
    pure c.mem

/-- `lnet_copy_iov2iov(ndiov, diov, doffset, nsiov, siov, soffset, nob)`. -/
def lnetCopyIov2iov (fuel : Nat) (diov : List Kvec) (doffset : UInt32) (siov : List Kvec) (soffset nob : UInt32)
    (mem : Nat → UInt8) : Option (Nat → UInt8) :=
  lnetCopyFrags fuel (diov.map Kvec.frag) doffset (siov.map Kvec.frag) soffset nob mem

/-- `lnet_copy_kiov2kiov(ndiov, diov, doffset, nsiov, siov, soffset, nob)`. -/
def lnetCopyKiov2kiov (fuel : Nat) (diov : List PagedBioVec) (doffset : UInt32) (siov : List PagedBioVec)
    (soffset nob : UInt32) (mem : Nat → UInt8) : Option (Nat → UInt8) :=
  lnetCopyFrags fuel (diov.map PagedBioVec.frag) doffset (siov.map PagedBioVec.frag) soffset nob mem

/-- `lnet_copy_kiov2iov(niov, iov, iovoffset, nkiov, kiov, kiovoffset, nob)`:
into the `kvec`s from the `bio_vec`s. -/
def lnetCopyKiov2iov (fuel : Nat) (iov : List Kvec) (iovoffset : UInt32) (kiov : List PagedBioVec)
    (kiovoffset nob : UInt32) (mem : Nat → UInt8) : Option (Nat → UInt8) :=
  lnetCopyFrags fuel (iov.map Kvec.frag) iovoffset (kiov.map PagedBioVec.frag) kiovoffset nob mem

/-- `lnet_copy_iov2kiov(nkiov, kiov, kiovoffset, niov, iov, iovoffset, nob)`:
into the `bio_vec`s from the `kvec`s. -/
def lnetCopyIov2kiov (fuel : Nat) (kiov : List PagedBioVec) (kiovoffset : UInt32) (iov : List Kvec)
    (iovoffset nob : UInt32) (mem : Nat → UInt8) : Option (Nat → UInt8) :=
  lnetCopyFrags fuel (kiov.map PagedBioVec.frag) kiovoffset (iov.map Kvec.frag) iovoffset nob mem

end Lustre.Lnet
