import Mathlib
import Lustre.Basic
import Lustre.NidStrings.NidList
import Lustre.LibcfsString.ExprList

/-! # The least and the greatest address of a nidlist

`libcfs/libcfs/util/nidstrings.c`, the user-space library.
`cfs_nidrange_find_min_max(nidlist, min_nid, max_nid, nidstr_length)`
writes the smallest and the largest NID of a nidlist as strings, with the
`nf_min_max` of the LND of its first nidrange.

For an IP LND, `cfs_ip_min_max` folds `cfs_ip_ar_min_max` over the address
ranges of the one nidrange it accepts. `cfs_ip_ar_min_max` takes each octet's
single range as that octet of the least and of the greatest address, and
rejects the shapes whose addresses are not all those in between: an octet
with two ranges, a stride other than one, and, once an octet is a range,
a later octet that is not all of `0-255`. For a numeric LND, `cfs_num_min_max`
folds `cfs_num_ar_min_max` over the address ranges. Both folds start from
`0` and take `0` as "none yet".

Errors are the negative values returned, `.error`; `-EINVAL` and `-ERANGE`
are those of the source. An octet beyond the fourth would be written past
`min_ip[4]`; the octets are a list here, and `List.set` past its end leaves
it as it is.
-/

namespace Lustre.NidStrings

open Lustre.LibcfsString

/-! ## IP address ranges -/

/-- The state of the loops of `cfs_ip_ar_min_max`: the octets of the least
and of the greatest address so far, the octet being read, and whether an
earlier octet was a range. -/
structure IpArMinMax where
  minIp : List Nat
  maxIp : List Nat
  curOctet : Nat
  expectFullOctet : Bool
  deriving DecidableEq, Repr

/-- The body of the loop over the ranges of an octet, the `re_count`-th. -/
def ipArRangeStep (st : IpArMinMax) (reCount : Nat) (range : CfsRangeExpr) : Except Int IpArMinMax :=
  if reCount > 0 then .error (-einval)
  else if st.expectFullOctet && (range.reLo ≠ 0 || range.reHi ≠ 255) then .error (-erange)
  else if range.reStride ≠ 1 then .error (-erange)
  else if range.reLo > range.reHi then .error (-einval)
  else .ok { minIp := st.minIp.set st.curOctet range.reLo, maxIp := st.maxIp.set st.curOctet range.reHi,
             curOctet := st.curOctet,
             expectFullOctet := st.expectFullOctet || range.reLo ≠ range.reHi }

/-- The loop over the ranges of an octet. -/
def ipArExprsLoop : List CfsRangeExpr → Nat → IpArMinMax → Except Int IpArMinMax
  | [], _, st => .ok st
  | range :: ranges, reCount, st => do
    let st ← ipArRangeStep st reCount range
    ipArExprsLoop ranges (reCount + 1) st

/-- The loop over the octets. -/
def ipArOctetsLoop : List CfsExprList → IpArMinMax → Except Int IpArMinMax
  | [], st => .ok st
  | el :: els, st => do
    let st ← ipArExprsLoop el.elExprs 0 st
    ipArOctetsLoop els { st with curOctet := st.curOctet + 1 }

/-- `(ip[0] << 24) | (ip[1] << 16) | (ip[2] << 8) | ip[3]`. -/
def ipOfOctets (ip : List Nat) : UInt32 :=
  (UInt32.ofNat (ip.getD 0 0) <<< 24) ||| (UInt32.ofNat (ip.getD 1 0) <<< 16) |||
    (UInt32.ofNat (ip.getD 2 0) <<< 8) ||| UInt32.ofNat (ip.getD 3 0)

/-- `cfs_ip_ar_min_max(ar, min_nid, max_nid)`. -/
def cfsIpArMinMax (ar : Addrrange) : Except Int (UInt32 × UInt32) := do
  let st ← ipArOctetsLoop ar.arNumaddrRanges ⟨[0, 0, 0, 0], [0, 0, 0, 0], 0, false⟩
  return (ipOfOctets st.minIp, ipOfOctets st.maxIp)

/-- The fold of `cfs_ip_min_max` over the address ranges of a nidrange. -/
def ipMinMaxArs : List Addrrange → UInt32 × UInt32 → Except Int (UInt32 × UInt32)
  | [], mm => .ok mm
  | ar :: ars, (minIp, maxIp) => do
    let (tmpMin, tmpMax) ← cfsIpArMinMax ar
    let minIp := if tmpMin < minIp || minIp = 0 then tmpMin else minIp
    let maxIp := if tmpMax > maxIp then tmpMax else maxIp
    ipMinMaxArs ars (minIp, maxIp)

/-- The loop of `cfs_ip_min_max` over the nidranges, `nidlist_count` of them
done: a second one is refused, and `nr_all` ends it with all addresses. -/
def ipMinMaxNrs : List Nidrange → Nat → UInt32 × UInt32 → Except Int (UInt32 × UInt32)
  | [], _, mm => .ok mm
  | nr :: nrs, nidlistCount, mm =>
    if nidlistCount > 0 then .error (-einval)
    else if nr.nrAll then .ok (0, 0xffffffff)
    else do
      let mm ← ipMinMaxArs nr.nrAddrranges mm
      ipMinMaxNrs nrs (nidlistCount + 1) mm

/-- `cfs_ip_min_max(nidlist, min_nid, max_nid)`. -/
def cfsIpMinMax (nidlist : List Nidrange) : Except Int (UInt32 × UInt32) :=
  ipMinMaxNrs nidlist 0 (0, 0)

/-! ## Numeric address ranges -/

/-- The loop of `cfs_num_ar_min_max` over the ranges of an expression list,
the `re_count`-th next. -/
def numArExprsLoop : List CfsRangeExpr → Nat → Nat × Nat → Except Int (Nat × Nat)
  | [], _, mm => .ok mm
  | re :: res, reCount, (minAddr, maxAddr) =>
    if reCount > 0 then .error (-einval)
    else if re.reLo > re.reHi then .error (-einval)
    else
      let minAddr := if re.reLo < minAddr || minAddr = 0 then re.reLo else minAddr
      let maxAddr := if re.reHi > maxAddr then re.reHi else maxAddr
      numArExprsLoop res (reCount + 1) (minAddr, maxAddr)

/-- The loop of `cfs_num_ar_min_max` over the expression lists. -/
def numArListsLoop : List CfsExprList → Nat × Nat → Except Int (Nat × Nat)
  | [], mm => .ok mm
  | el :: els, mm => do
    let mm ← numArExprsLoop el.elExprs 0 mm
    numArListsLoop els mm

/-- `cfs_num_ar_min_max(ar, min_nid, max_nid)`. -/
def cfsNumArMinMax (ar : Addrrange) : Except Int (UInt32 × UInt32) :=
  (numArListsLoop ar.arNumaddrRanges (0, 0)).map fun (minAddr, maxAddr) => (UInt32.ofNat minAddr, UInt32.ofNat maxAddr)

/-- The fold of `cfs_num_min_max` over the address ranges of a nidrange: the
greatest address is taken from `tmp_min_addr`, as the source does. -/
def numMinMaxArs : List Addrrange → UInt32 × UInt32 → Except Int (UInt32 × UInt32)
  | [], mm => .ok mm
  | ar :: ars, (minAddr, maxAddr) => do
    let (tmpMin, tmpMax) ← cfsNumArMinMax ar
    let minAddr := if tmpMin < minAddr || minAddr = 0 then tmpMin else minAddr
    let maxAddr := if tmpMax > maxAddr then tmpMin else maxAddr
    numMinMaxArs ars (minAddr, maxAddr)

/-- The loop of `cfs_num_min_max` over the nidranges; `nidlist_count` is
never incremented. -/
def numMinMaxNrs : List Nidrange → Nat → UInt32 × UInt32 → Except Int (UInt32 × UInt32)
  | [], _, mm => .ok mm
  | nr :: nrs, nidlistCount, mm =>
    if nidlistCount > 0 then .error (-einval)
    else do
      let mm ← numMinMaxArs nr.nrAddrranges mm
      numMinMaxNrs nrs nidlistCount mm

/-- `cfs_num_min_max(nidlist, min_nid, max_nid)`. -/
def cfsNumMinMax (nidlist : List Nidrange) : Except Int (UInt32 × UInt32) :=
  numMinMaxNrs nidlist 0 (0, 0)

/-! ## Strings -/

/-- `nf->nf_min_max(nidlist, &min_addr, &max_addr)`. -/
def Netstrfns.minMax (nf : Netstrfns) (nidlist : List Nidrange) : Except Int (UInt32 × UInt32) :=
  match nf.nfAddrlist with
  | .num => cfsNumMinMax nidlist
  | .ip => cfsIpMinMax nidlist

/-- `IPSTRING_LENGTH`. -/
def ipstringLength : Nat := 16

/-- `"%d"`. -/
def fmtDecimal (x : Int) : List Char :=
  if x < 0 then '-' :: CFormat.fmtNat 10 x.natAbs else CFormat.fmtNat 10 x.toNat

/-- `snprintf(nid, nidstr_length, "%s@%s%d", addr_str, lndname, netnum)`,
`addr_str` cut to `IPSTRING_LENGTH`; `netnum` is an `int` holding the
network number. -/
def minMaxNidStr (nf : Netstrfns) (netnum : Nat) (addr : UInt32) (nidstrLength : Nat) : List Char :=
  snprintf nidstrLength (snprintf ipstringLength (nf.addr2str addr) ++ '@' :: nf.nfName ++
    fmtDecimal (CArith.narrowInt netnum))

/-- `cfs_nidrange_find_min_max(nidlist, min_nid, max_nid, nidstr_length)`:
the two strings, or the negative value returned. The first nidrange of an
empty list is the list head itself, `none`. -/
def cfsNidrangeFindMinMax (nidlist : List Nidrange) (nidstrLength : Nat) :
    Option (Except Int (List Char × List Char)) :=
  match nidlist with
  | [] => none
  | first :: _ =>
    let nf := first.nrNetstrfns
    some ((nf.minMax nidlist).map fun (minAddr, maxAddr) =>
      (minMaxNidStr nf first.nrNetnum minAddr nidstrLength, minMaxNidStr nf first.nrNetnum maxAddr nidstrLength))

end Lustre.NidStrings
