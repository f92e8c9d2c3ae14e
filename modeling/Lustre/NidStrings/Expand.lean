import Mathlib
import Lustre.Lib.DownFill
import Lustre.NidStrings.NidList
import Lustre.LibcfsString.ExprList

/-! # Expanding a nidlist into its NIDs

`libcfs/libcfs/util/nidstrings.c`, the user-space library.
`cfs_expand_nidlist(nidlist, lnet_nidlist, max_nids)` writes out the NIDs a
parsed nidlist covers. It hands an array `addrs` of `max_nids` addresses to
each nidrange in turn, with the number `count` of slots still free; the
nidrange hands it on to the `nf_expand_addrrange` of its LND for each of its
address ranges, which fills it from slot `count - 1` down and returns how
many it wrote, or `-1` when they do not fit. The nidrange's addresses are
then read back from slot `count - 1` down and made into NIDs.

The numeric LNDs expand with `libcfs_num_addr_range_expand`, a loop
`for (i = re_lo; i <= re_hi; i += re_stride)` over each range that checks
for a free slot before each store. The IP LNDs expand with
`cfs_ip_addr_range_gen`, a depth-first recursion over the four octets that
stores at the leaves and counts the next slot in `*count`, `-1` once none is
left, which is also what it returns on overflow; `libcfs_ip_addr_range_expand`
reads a `-1` as overflow.

The slots are the state of `DownFill`: the number still free, so that the
source's index of the next one is that number less one, and the array. The
recursion's `return -1` is the inner `none`; a remainder by a zero stride,
and a loop up to `UINT_MAX`, which never ends, are the outer one, as in
`LibcfsString.ExprList`. A function that returns `-1` leaves the array as
the stores before it left it (`.error`), the slots it filled included.
-/

namespace Lustre.NidStrings

open Lustre.LibcfsString DownFill

/-! ## Numeric address ranges -/

/-- `for (i = re_lo; i <= re_hi; i += re_stride)` of
`libcfs_num_addr_range_expand`, from slot `free - 1` down: `i` is an `int`,
compared and stepped as the `__u32` bound it is compared with. `.error` is
the `return -1` of a value with no slot left, with the array as it is. -/
def numRangeLoop (hi stride : UInt32) : Nat → UInt32 → (Nat → UInt32) → Except (Nat → UInt32) (Nat × (Nat → UInt32))
  | 0, i, addrs => if i ≤ hi then .error addrs else .ok (0, addrs)
  | free + 1, i, addrs =>
    if i ≤ hi then numRangeLoop hi stride free (i + stride) (Function.update addrs free i)
    else .ok (free + 1, addrs)

/-- The loop over the ranges of an expression list. -/
def numExprsLoop : List CfsRangeExpr → Nat × (Nat → UInt32) → Except (Nat → UInt32) (Nat × (Nat → UInt32))
  | [], st => .ok st
  | re :: res, (free, addrs) =>
    (numRangeLoop (UInt32.ofNat re.reHi) (UInt32.ofNat re.reStride) free (UInt32.ofNat re.reLo) addrs).bind
      (numExprsLoop res)

/-- The loop over the expression lists. -/
def numListsLoop : List CfsExprList → Nat × (Nat → UInt32) → Except (Nat → UInt32) (Nat × (Nat → UInt32))
  | [], st => .ok st
  | el :: els, st => (numExprsLoop el.elExprs st).bind (numListsLoop els)

/-- `libcfs_num_addr_range_expand(addrranges, addrs, max_addrs)`: what it
returns, `max_idx - addrs_idx` or `-1`, and the array. -/
def libcfsNumAddrRangeExpand (addrranges : List CfsExprList) (addrs : Nat → UInt32) (maxAddrs : Nat) :
    Int × (Nat → UInt32) :=
  match numListsLoop addrranges (maxAddrs, addrs) with
  | .error addrs => (-1, addrs)
  | .ok (free, addrs) => ((maxAddrs : Int) - free, addrs)

/-! ## IP address ranges -/

section Gen

variable {ρ σ : Type}

/-- `for (i = re_lo; i <= re_hi; i++)` of `cfs_ip_addr_range_gen_recurse`
over one range, `n` turns from `i`: `visit` for each `i` with
`(i - re_lo) % re_stride == 0`, stopping at the first `-1` (`.error`). -/
def ipValueLoop (visit : Nat → σ → Option (Except ρ σ)) (expr : CfsRangeExpr) :
    Nat → Nat → σ → Option (Except ρ σ)
  | 0, _, st => some (.ok st)
  | n + 1, i, st => do
    let hit ← rangeHit expr i
    if hit then
      match ← visit i st with
      | .error r => return .error r
      | .ok st => ipValueLoop visit expr n (i + 1) st
    else ipValueLoop visit expr n (i + 1) st

/-- The loop over the range expressions of an octet. -/
def ipExprsLoop (visit : Nat → σ → Option (Except ρ σ)) : List CfsRangeExpr → σ → Option (Except ρ σ)
  | [], st => some (.ok st)
  | expr :: exprs, st => do
    let n ← rangeTurns expr
    match ← ipValueLoop visit expr n expr.reLo st with
    | .error r => return .error r
    | .ok st => ipExprsLoop visit exprs st

end Gen

/-- `value = result | (i << (shift * 8))`. -/
def octetValue (shift : Nat) (result : UInt32) (i : Nat) : UInt32 :=
  result ||| (UInt32.ofNat i <<< UInt32.ofNat (shift * 8))

/-- `cfs_ip_addr_range_gen_recurse(ip_list, count, shift, result, head_el,
octet_el)` over the octet `el` and the octets after it, `els`. The leaf
test `next_octet_el->el_link.next != head_el`, with `head_el` the first
octet's link, holds exactly when `el` is not the last octet of the circular
list; at a leaf, `if (*count == -1) return -1; ip_list[*count] = value;
(*count)--;` is a `push`, which gives up with the array as it is. -/
def cfsIpAddrRangeGenRecurse : Nat → UInt32 → CfsExprList → List CfsExprList → Nat × (Nat → UInt32) →
    Option (Except (Nat → UInt32) (Nat × (Nat → UInt32)))
  | shift, result, el, [], st =>
    ipExprsLoop (fun i st => some (push (octetValue shift result i) st)) el.elExprs st
  | shift, result, el, next :: els, st =>
    ipExprsLoop (fun i st => cfsIpAddrRangeGenRecurse (shift - 1) (octetValue shift result i) next els st)
      el.elExprs st

/-- `cfs_ip_addr_range_gen(ip_list, count, ip_addr_expr)`: the index `idx` of
the next free slot, `-1` when none is left or the recursion returned `-1`,
and the array. An empty list has no first octet to start from. -/
def cfsIpAddrRangeGen (ipList : Nat → UInt32) (count : Nat) : List CfsExprList → Option (Int × (Nat → UInt32))
  | [] => none
  | el :: els =>
    (cfsIpAddrRangeGenRecurse 3 0 el els (count, ipList)).map fun r =>
      match r with
      | .error ipList => (-1, ipList)
      | .ok (free, ipList) => ((free : Int) - 1, ipList)

/-- `libcfs_ip_addr_range_expand(addrranges, addrs, max_addrs)`. -/
def libcfsIpAddrRangeExpand (addrranges : List CfsExprList) (addrs : Nat → UInt32) (maxAddrs : Nat) :
    Option (Int × (Nat → UInt32)) :=
  (cfsIpAddrRangeGen addrs maxAddrs addrranges).map fun (rc, addrs) =>
    if rc = -1 then (rc, addrs) else ((maxAddrs : Int) - rc - 1, addrs)

/-- `nf->nf_expand_addrrange(addrranges, addrs, count)`, which the table sets
with the other numeric or IP functions. -/
def Netstrfns.expandAddrrange (nf : Netstrfns) (addrranges : List CfsExprList) (addrs : Nat → UInt32)
    (count : Nat) : Option (Int × (Nat → UInt32)) :=
  match nf.nfAddrlist with
  | .num => some (libcfsNumAddrRangeExpand addrranges addrs count)
  | .ip => libcfsIpAddrRangeExpand addrranges addrs count

/-! ## Nidranges and nidlists -/

/-- The loop of `libcfs_expand_nidrange` over the address ranges, with
`count` slots free: its return value, and the array. -/
def expandAddrrangesLoop (nf : Netstrfns) (maxNids : Int) :
    List Addrrange → (Nat → UInt32) → Int → Option (Int × (Nat → UInt32))
  | [], addrs, count => some (maxNids - count, addrs)
  | ar :: ars, addrs, count => do
    let (rc, addrs) ← nf.expandAddrrange ar.arNumaddrRanges addrs count.toNat
    if rc < 0 then return (rc, addrs)
    expandAddrrangesLoop nf maxNids ars addrs (count - rc)

/-- `libcfs_expand_nidrange(nr, addrs, max_nids)`. -/
def libcfsExpandNidrange (nr : Nidrange) (addrs : Nat → UInt32) (maxNids : Int) : Option (Int × (Nat → UInt32)) :=
  expandAddrrangesLoop nr.nrNetstrfns maxNids nr.nrAddrranges addrs maxNids

/-- The loop of `cfs_expand_nidlist` over the nidranges, with `count` slots
free and the NIDs written so far: after each nidrange,
`for (i = count - 1; i >= count - rc; i--) lnet_nidlist[j++] =
LNET_MKNID(net, addrs[i])`. -/
def expandNidrangesLoop (maxNids : Int) :
    List Nidrange → (Nat → UInt32) → Int → List UInt64 → Option (Int × List UInt64)
  | [], _, count, out => some (maxNids - count, out)
  | nr :: nrs, addrs, count, out => do
    let (rc, addrs) ← libcfsExpandNidrange nr addrs count
    if rc < 0 then return (rc, out)
    let net := lnetMkNet nr.nrNetstrfns.nfType (UInt32.ofNat nr.nrNetnum)
    expandNidrangesLoop maxNids nrs addrs (count - rc)
      (out ++ (readDown addrs count.toNat rc.toNat).map (lnetMkNid net))

/-- `cfs_expand_nidlist(nidlist, lnet_nidlist, max_nids)`: what it returns,
and the NIDs it wrote to `lnet_nidlist`. `addrs` comes from `calloc`. -/
def cfsExpandNidlist (nidlist : List Nidrange) (maxNids : Nat) : Option (Int × List UInt64) :=
  expandNidrangesLoop maxNids nidlist (fun _ => 0) maxNids []

end Lustre.NidStrings
