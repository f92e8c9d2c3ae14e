import Mathlib
import Lustre.NidStrings
import Lustre.LibcfsString

/-! # NID range lists: parsing, printing and matching

`lnet/lnet/nidstrings.c`. A nidlist is a string of nidranges
`<addrrange>@<net>` separated by blanks, where an address range is `*`, four
dotted expression lists of bytes for an IP LND, or one expression list for a
numeric LND. `cfs_parse_nidlist` compiles it into a list of
`struct nidrange`, one for each network named: `add_nidrange` finds the
nidrange of a network already on the list, and `parse_addrange` then either
sets its `nr_all` (for `*`) or adds an address range to it.
`cfs_print_nidlist` writes a list back, and `cfs_match_nid` tests a NID
against it.

The faithful layer follows the C routines one for one, over the buffer model
of `Lustre.LibcfsString`. Over it:

* `cfsParseNidlist_wf`: what the parser accepts is well formed, with one
  nidrange per network and address ranges of the arity of their LND;
* `cfsPrintNidlist_eq_none_iff`: on such a list the printer trips its
  `LASSERT` exactly when a nidrange has both `nr_all` and an address range,
  which a `*` and an address on the same network in one string produce.
-/

namespace Lustre.NidStrings

open CFormat Lustre.LibcfsString

/-- `MAX_NUMERIC_VALUE`. -/
def maxNumericValue : Nat := 0xffffffff

/-! ## Data -/

/-- `struct addrrange`: its list `ar_numaddr_ranges`. -/
structure Addrrange where
  arNumaddrRanges : List CfsExprList
  deriving DecidableEq, Repr

/-- `struct nidrange`. `nr_netnum` is an `int` that holds the `unsigned`
network number and is read back as unsigned wherever it is compared or
printed, so it is that number here. -/
structure Nidrange where
  nrAddrranges : List Addrrange
  nrAll : Bool
  nrNetstrfns : Netstrfns
  nrNetnum : Nat
  deriving DecidableEq, Repr

/-! ## Parsing -/

/-- `cfs_ip_addr_parse(str, len, list)`: expression lists of byte values
separated by dots, exactly four of them; the count `i` of the source is the
length of the list built. -/
def cfsIpAddrParse (mem : List Char) (str len : Nat) :
    Option (List Char × Option (List CfsExprList)) :=
  let src : Lstr := ⟨some str, len⟩
  let body := fun mem (tok : Lstr) (els : List CfsExprList) => do
    let p ← tok.lsStr
    let (mem, el) ← cfsExprListParse mem p tok.lsLen 0 255
    return (mem, el.map (els ++ [·]))
  (cfsTokenLoop '.' body (src.lsLen + 1) mem src []).map fun (mem, els) =>
    (mem, els.filter fun els => els.length == 4)

/-- `libcfs_num_parse(str, len, list)`: one expression list of addresses. -/
def libcfsNumParse (mem : List Char) (str len : Nat) :
    Option (List Char × Option (List CfsExprList)) :=
  (cfsExprListParse mem str len 0 maxNumericValue).map fun (mem, el) => (mem, el.map ([·]))

/-- `nf->nf_parse_addrlist(str, len, list)`. -/
def Netstrfns.parseAddrlist (nf : Netstrfns) (mem : List Char) (str len : Nat) :
    Option (List Char × Option (List CfsExprList)) :=
  match nf.nfAddrlist with
  | .num => libcfsNumParse mem str len
  | .ip => cfsIpAddrParse mem str len

/-- `parse_addrange(src, nidrange)`: `*` sets `nr_all`; anything else is
parsed by the LND into a new address range at the end of the nidrange's. On
an error the caller frees the whole list, so the nidrange it leaves does not
matter. -/
def parseAddrange (mem : List Char) (src : Lstr) (nr : Nidrange) :
    Option (List Char × Option Nidrange) := do
  if (← isStar mem src) then return (mem, some { nr with nrAll := true })
  let str ← src.lsStr
  let (mem, ranges) ← nr.nrNetstrfns.parseAddrlist mem str src.lsLen
  return (mem, ranges.map fun ranges => { nr with nrAddrranges := nr.nrAddrranges ++ [⟨ranges⟩] })

/-- `libcfs_namenum2netstrfns(name)`: the same search by name prefix that
`libcfs_str2net_internal` makes. -/
def libcfsNamenum2netstrfns (name : List Char) : Option Netstrfns := netstrfnsByPrefix name

/-- The end of `add_nidrange`: the position of the nidrange of network
`(nf, netnum)` on the list, added at the end when there is none. -/
def findOrAddNidrange (nidlist : List Nidrange) (nf : Netstrfns) (netnum : Nat) :
    List Nidrange × Nat :=
  match nidlist.findIdx? fun nr => nr.nrNetstrfns == nf && nr.nrNetnum == netnum with
  | some i => (nidlist, i)
  | none => (nidlist ++ [⟨[], false, nf, netnum⟩], nidlist.length)

/-- `add_nidrange(src, nidlist)`: the list and the position of the nidrange
of the network `src` names, `none` for `NULL`. The name is looked up in the
string from `src` on, past the end of the token; what follows the name is a
network number. -/
def addNidrange (mem : List Char) (src : Lstr) (nidlist : List Nidrange) :
    Option (List Char × Option (List Nidrange × Nat)) := do
  if src.lsLen ≥ lnetNidstrSize then return (mem, none)
  let str ← src.lsStr
  let some nf := libcfsNamenum2netstrfns (cstr mem str) | return (mem, none)
  let endlen : Int := src.lsLen - nf.nfName.length
  let (mem, netnum) ← if endlen = 0 then some (mem, some 0)
    else do
      let r ← cfsStr2numCheck mem (some (str + nf.nfName.length)) endlen 0 maxNumericValue
      pure (r.mem, if r.ok then r.num else none)
  let some netnum := netnum | return (mem, none)
  return (mem, some (findOrAddNidrange nidlist nf netnum))

/-- `parse_nidrange(src, nidlist)`: `<addrrange>@<net>` with nothing after
the network. -/
def parseNidrange (mem : List Char) (src : Lstr) (nidlist : List Nidrange) :
    Option (List Char × Option (List Nidrange)) := do
  let (src, addrrange) := cfsGettok mem src '@'
  let some addrrange := addrrange | return (mem, none)
  let (src, net) := cfsGettok mem src '@'
  let some net := net | return (mem, none)
  if src.lsStr.isSome then return (mem, none)
  let (mem, found) ← addNidrange mem net nidlist
  let some (nidlist, i) := found | return (mem, none)
  -- `i` is a position of the list, so the lookup never fails
  let nr ← nidlist[i]?
  let (mem, nr) ← parseAddrange mem addrrange nr
  return (mem, nr.map (nidlist.set i ·))

/-- `cfs_parse_nidlist(str, len, nidlist)`: the nidranges separated by
blanks; the list it builds when it returns 1. -/
def cfsParseNidlist (mem : List Char) (len : Nat) : Option (List Char × Option (List Nidrange)) :=
  let src : Lstr := ⟨some 0, len⟩
  cfsTokenLoop ' ' parseNidrange (src.lsLen + 1) mem src []

/-! ## Printing -/

/-- `cfs_print_network(buffer, count, nr)`: `@<name>`, followed by the
network number unless it is 0. -/
def cfsPrintNetwork (count : Int) (nr : Nidrange) : List Char :=
  if nr.nrNetnum = 0 then scnprintf count ('@' :: nr.nrNetstrfns.nfName)
  else scnprintf count ('@' :: nr.nrNetstrfns.nfName ++ fmtNat 10 nr.nrNetnum)

/-- The loop of `libcfs_ip_addr_range_print` and `libcfs_num_addr_range_print`
over the expression lists, from the `j`-th on after the text `out`:
`LASSERT(j++ < most)`, then `sep` unless nothing is written yet, then the
list. -/
def addrRangesPrint (count : Int) (most : Nat) (sep : List Char) :
    Nat → List Char → List CfsExprList → Option (List Char)
  | _, out, [] => some out
  | j, out, el :: els =>
    if j < most then
      let out := if out.length = 0 then out else scnAppend count out sep
      addrRangesPrint count most sep (j + 1) (out ++ cfsExprListPrint (count - out.length) el) els
    else none

/-- `libcfs_ip_addr_range_print(buffer, count, list)`: at most four lists,
joined by dots. -/
def libcfsIpAddrRangePrint (count : Int) (els : List CfsExprList) : Option (List Char) :=
  addrRangesPrint count 4 ['.'] 0 [] els

/-- `libcfs_num_addr_range_print(buffer, count, list)`: at most one list. -/
def libcfsNumAddrRangePrint (count : Int) (els : List CfsExprList) : Option (List Char) :=
  addrRangesPrint count 1 [] 0 [] els

/-- `nf->nf_print_addrlist(buffer, count, list)`. -/
def Netstrfns.printAddrlist (nf : Netstrfns) (count : Int) (els : List CfsExprList) :
    Option (List Char) :=
  match nf.nfAddrlist with
  | .num => libcfsNumAddrRangePrint count els
  | .ip => libcfsIpAddrRangePrint count els

/-- The loop of `cfs_print_addrranges` after the text `out`: each address
range with the network after it, separated by blanks. -/
def addrrangesPrint (count : Int) (nr : Nidrange) : List Char → List Addrrange → Option (List Char)
  | out, [] => some out
  | out, ar :: ars => do
    let out := if out.length = 0 then out else scnAppend count out [' ']
    let out := out ++ (← nr.nrNetstrfns.printAddrlist (count - out.length) ar.arNumaddrRanges)
    addrrangesPrint count nr (out ++ cfsPrintNetwork (count - out.length) nr) ars

/-- `cfs_print_addrranges(buffer, count, addrranges, nr)`. -/
def cfsPrintAddrranges (count : Int) (addrranges : List Addrrange) (nr : Nidrange) :
    Option (List Char) :=
  addrrangesPrint count nr [] addrranges

/-- The loop of `cfs_print_nidlist` after the text `out`: `*@<net>` for a
nidrange with `nr_all`, after `LASSERT(list_empty(&nr->nr_addrranges))`, and
its address ranges otherwise. -/
def nidrangesPrint (count : Int) : List Char → List Nidrange → Option (List Char)
  | out, [] => some out
  | out, nr :: nrs => do
    let out := if out.length = 0 then out else scnAppend count out [' ']
    let out ← if nr.nrAll then
        if nr.nrAddrranges = [] then
          let out := scnAppend count out ['*']
          some (out ++ cfsPrintNetwork (count - out.length) nr)
        else none
      else (cfsPrintAddrranges (count - out.length) nr.nrAddrranges nr).map (out ++ ·)
    nidrangesPrint count out nrs

/-- `cfs_print_nidlist(buffer, count, nidlist)`: the text written, `none` for
a failed `LASSERT`. -/
def cfsPrintNidlist (count : Int) (nidlist : List Nidrange) : Option (List Char) :=
  if count ≤ 0 then some [] else nidrangesPrint count [] nidlist

/-! ## Matching -/

/-- The loop of `cfs_ip_addr_match` over the byte lists from the last one,
with the address shifted right by one byte a list: it counts the lists. -/
def ipAddrMatchLoop : UInt32 → Nat → List CfsExprList → Option Bool
  | _, i, [] => some (i == 4)
  | addr, i, el :: els =>
    match cfsExprListMatch (addr &&& 0xff).toNat el with
    | none => none
    | some false => some false
    | some true => ipAddrMatchLoop (addr >>> 8) (i + 1) els

/-- `cfs_ip_addr_match(addr, list)`. -/
def cfsIpAddrMatch (addr : UInt32) (els : List CfsExprList) : Option Bool :=
  ipAddrMatchLoop addr 0 els.reverse

/-- `libcfs_num_match(addr, numaddr)`: the first list, after
`LASSERT(!list_empty(numaddr))`. -/
def libcfsNumMatch (addr : UInt32) (els : List CfsExprList) : Option Bool :=
  match els with
  | [] => none
  | el :: _ => cfsExprListMatch addr.toNat el

/-- `nf->nf_match_addr(addr, list)`. -/
def Netstrfns.matchAddr (nf : Netstrfns) (addr : UInt32) (els : List CfsExprList) : Option Bool :=
  match nf.nfAddrlist with
  | .num => libcfsNumMatch addr els
  | .ip => cfsIpAddrMatch addr els

/-- The inner loop of `cfs_match_nid` over a nidrange's address ranges. -/
def addrrangesMatch (nf : Netstrfns) (addr : UInt32) : List Addrrange → Option Bool
  | [] => some false
  | ar :: ars =>
    match nf.matchAddr addr ar.arNumaddrRanges with
    | none => none
    | some true => some true
    | some false => addrrangesMatch nf addr ars

/-- `cfs_match_nid(nid, nidlist)`: `none` when a match traps. -/
def cfsMatchNid (nid : UInt64) : List Nidrange → Option Bool
  | [] => some false
  | nr :: nrs =>
    if nr.nrNetstrfns.nfType ≠ lnetNetTyp (lnetNidNet nid) then cfsMatchNid nid nrs
    else if nr.nrNetnum ≠ (lnetNetNum (lnetNidNet nid)).toNat then cfsMatchNid nid nrs
    else if nr.nrAll then some true
    else
      match addrrangesMatch nr.nrNetstrfns (lnetNidAddr nid) nr.nrAddrranges with
      | none => none
      | some true => some true
      | some false => cfsMatchNid nid nrs

/-! ## What the parser builds -/

/-- The number of expression lists in an address range of an LND. -/
def Addrlist.arity : Addrlist → Nat
  | .num => 1
  | .ip => 4

/-- A nidrange list as `cfs_parse_nidlist` builds it: no two nidranges of
one network, and every address range with as many expression lists as its
LND parses. -/
structure NidlistWF (nidlist : List Nidrange) : Prop where
  nodup : (nidlist.map fun nr => (nr.nrNetstrfns, nr.nrNetnum)).Nodup
  arity : ∀ nr ∈ nidlist, ∀ ar ∈ nr.nrAddrranges,
    ar.arNumaddrRanges.length = nr.nrNetstrfns.nfAddrlist.arity

theorem nidlistWF_nil : NidlistWF [] := ⟨List.nodup_nil, by simp⟩

theorem cfsIpAddrParse_length {mem mem' : List Char} {str len : Nat} {els : List CfsExprList}
    (h : cfsIpAddrParse mem str len = some (mem', some els)) : els.length = 4 := by
  simp only [cfsIpAddrParse, Option.map_eq_some_iff, Prod.mk.injEq] at h
  obtain ⟨⟨_, r⟩, -, -, hr⟩ := h
  rw [Option.filter_eq_some_iff] at hr
  simpa using hr.2

theorem libcfsNumParse_length {mem mem' : List Char} {str len : Nat} {els : List CfsExprList}
    (h : libcfsNumParse mem str len = some (mem', some els)) : els.length = 1 := by
  simp only [libcfsNumParse, Option.map_eq_some_iff, Prod.mk.injEq] at h
  obtain ⟨⟨_, r⟩, -, -, el, -, rfl⟩ := h
  rfl

/-- The LND parses an address range into as many lists as its arity. -/
theorem parseAddrlist_length {nf : Netstrfns} {mem mem' : List Char} {str len : Nat}
    {els : List CfsExprList} (h : nf.parseAddrlist mem str len = some (mem', some els)) :
    els.length = nf.nfAddrlist.arity := by
  unfold Netstrfns.parseAddrlist at h
  cases hnf : nf.nfAddrlist with
  | num =>
    rw [hnf] at h
    exact libcfsNumParse_length h
  | ip =>
    rw [hnf] at h
    exact cfsIpAddrParse_length h

/-- `parse_addrange` either sets `nr_all` or adds an address range of the
LND's arity; the network is left alone. -/
theorem parseAddrange_cases {mem mem' : List Char} {src : Lstr} {nr nr' : Nidrange}
    (h : parseAddrange mem src nr = some (mem', some nr')) :
    nr' = { nr with nrAll := true } ∨
      ∃ ranges : List CfsExprList, ranges.length = nr.nrNetstrfns.nfAddrlist.arity ∧
        nr' = { nr with nrAddrranges := nr.nrAddrranges ++ [⟨ranges⟩] } := by
  unfold parseAddrange at h
  rcases hstar : isStar mem src with _ | _ | _
  · simp [hstar] at h
  · rcases hstr : src.lsStr with _ | str
    · simp [hstar, hstr] at h
    · rcases hp : nr.nrNetstrfns.parseAddrlist mem str src.lsLen with _ | ⟨m, _ | ranges⟩
      · simp [hstar, hstr, hp] at h
      · simp [hstar, hstr, hp] at h
      · simp only [hstar, hstr, hp, Option.bind_eq_bind, Option.bind_some, Option.pure_def,
          Option.some.injEq, Prod.mk.injEq, Option.map_some, Bool.false_eq_true, if_false] at h
        exact .inr ⟨ranges, parseAddrlist_length hp, h.2.symm⟩
  · simp only [hstar, Option.bind_eq_bind, Option.bind_some, if_true, Option.pure_def,
      Option.some.injEq, Prod.mk.injEq] at h
    exact .inl h.2.symm

theorem findOrAddNidrange_wf {nidlist : List Nidrange} (hwf : NidlistWF nidlist) (nf : Netstrfns)
    (netnum : Nat) : NidlistWF (findOrAddNidrange nidlist nf netnum).1 := by
  unfold findOrAddNidrange
  split
  · exact hwf
  · next hnone =>
    have hfresh : (nf, netnum) ∉ nidlist.map fun nr => (nr.nrNetstrfns, nr.nrNetnum) := by
      simp only [List.mem_map, Prod.mk.injEq, not_exists, not_and]
      intro nr hmem hnf hnum
      have := List.findIdx?_eq_none_iff.mp hnone nr hmem
      simp [hnf, hnum] at this
    constructor
    · rw [List.map_append, List.nodup_append]
      exact ⟨hwf.nodup, by simp, by simpa using hfresh⟩
    · intro nr hmem ar har
      rcases List.mem_append.mp hmem with hmem | hmem
      · exact hwf.arity nr hmem ar har
      · rw [List.mem_singleton] at hmem
        subst hmem
        cases har

theorem addNidrange_some {mem mem' : List Char} {src : Lstr} {nidlist nidlist' : List Nidrange}
    {i : Nat} (h : addNidrange mem src nidlist = some (mem', some (nidlist', i))) :
    ∃ nf netnum, (nidlist', i) = findOrAddNidrange nidlist nf netnum := by
  unfold addNidrange at h
  split_ifs at h with hlen
  · simp at h
  rcases hstr : src.lsStr with _ | str
  · simp [hstr] at h
  rcases hnf : libcfsNamenum2netstrfns (cstr mem str) with _ | nf
  · simp [hstr, hnf] at h
  simp only [hstr, hnf, Option.bind_eq_bind, Option.bind_some, Option.pure_def] at h
  split at h
  -- the network name alone: network number 0
  · simp only [Option.some.injEq, Prod.mk.injEq] at h
    exact ⟨nf, 0, h.2.symm⟩
  -- a network number after the name
  · obtain ⟨r, -, h⟩ := Option.bind_eq_some_iff.mp h
    split at h
    · next netnum _ =>
      simp only [Option.some.injEq, Prod.mk.injEq] at h
      exact ⟨nf, netnum, h.2.symm⟩
    · simp at h

/-- Changing a nidrange's address ranges, in a way that keeps their arity,
keeps the list well formed. -/
theorem NidlistWF.set {nidlist : List Nidrange} {i : Nat} {nr nr' : Nidrange}
    (hwf : NidlistWF nidlist) (hi : nidlist[i]? = some nr)
    (hnf : nr'.nrNetstrfns = nr.nrNetstrfns) (hnum : nr'.nrNetnum = nr.nrNetnum)
    (harity : ∀ ar ∈ nr'.nrAddrranges, ar.arNumaddrRanges.length = nr'.nrNetstrfns.nfAddrlist.arity) :
    NidlistWF (nidlist.set i nr') := by
  obtain ⟨hlt, rfl⟩ := List.getElem?_eq_some_iff.mp hi
  constructor
  · -- the key at `i` stays what it was
    have hlt' : i < (nidlist.map fun nr => (nr.nrNetstrfns, nr.nrNetnum)).length := by
      simpa using hlt
    have hkey : (nidlist.map fun nr => (nr.nrNetstrfns, nr.nrNetnum))[i] =
        (nr'.nrNetstrfns, nr'.nrNetnum) := by
      rw [List.getElem_map, hnf, hnum]
    rw [List.map_set, ← hkey, List.set_getElem_self]
    exact hwf.nodup
  · intro nr'' hmem ar har
    rcases List.mem_or_eq_of_mem_set hmem with hmem | rfl
    · exact hwf.arity nr'' hmem ar har
    · exact harity ar har

/-- One nidrange parsed keeps the list well formed. -/
theorem parseNidrange_wf {mem mem' : List Char} {src : Lstr} {nidlist nidlist' : List Nidrange}
    (hwf : NidlistWF nidlist) (h : parseNidrange mem src nidlist = some (mem', some nidlist')) :
    NidlistWF nidlist' := by
  unfold parseNidrange at h
  rcases hg1 : cfsGettok mem src '@' with ⟨src1, _ | addrrange⟩
  · simp [hg1] at h
  rcases hg2 : cfsGettok mem src1 '@' with ⟨src2, _ | net⟩
  · simp [hg1, hg2] at h
  simp only [hg1, hg2, Option.bind_eq_bind, Option.pure_def] at h
  split_ifs at h with hrest
  · simp at h
  rcases hadd : addNidrange mem net nidlist with _ | ⟨m1, _ | ⟨nidlist1, i⟩⟩
  · simp [hadd] at h
  · simp [hadd] at h
  obtain ⟨nf, netnum, hfind⟩ := addNidrange_some hadd
  have hwf1 : NidlistWF nidlist1 := by
    have := findOrAddNidrange_wf hwf nf netnum
    rwa [← hfind] at this
  rcases hi : nidlist1[i]? with _ | nr
  · simp [hadd, hi] at h
  rcases hp : parseAddrange m1 addrrange nr with _ | ⟨m2, _ | nr'⟩
  · simp [hadd, hi, hp] at h
  · simp [hadd, hi, hp] at h
  simp only [hadd, hi, hp, Option.bind_some, Option.some.injEq, Prod.mk.injEq, Option.map_some] at h
  rw [← h.2]
  have hnr := hwf1.arity nr (List.mem_of_getElem? hi)
  rcases parseAddrange_cases hp with rfl | ⟨ranges, hlen, rfl⟩
  · exact hwf1.set hi rfl rfl hnr
  · refine hwf1.set hi rfl rfl ?_
    intro ar har
    rcases List.mem_append.mp har with har | har
    · exact hnr ar har
    · rw [List.mem_singleton] at har
      subst har
      exact hlen

/-- Whatever `cfs_parse_nidlist` accepts is well formed. -/
theorem cfsParseNidlist_wf {mem mem' : List Char} {len : Nat} {nidlist : List Nidrange}
    (h : cfsParseNidlist mem len = some (mem', some nidlist)) : NidlistWF nidlist :=
  cfsTokenLoop_inv ' ' parseNidrange NidlistWF (fun _ _ _ _ _ hstep hwf => parseNidrange_wf hwf hstep)
    _ _ _ _ _ _ h nidlistWF_nil

/-! ## When printing faults -/

section Printing

variable (count : Int)

/-- The loop over an address range's lists faults exactly when there are
more lists than the LND prints. -/
theorem addrRangesPrint_isSome_iff (most : Nat) (sep : List Char) :
    ∀ j out els, j ≤ most →
      ((addrRangesPrint count most sep j out els).isSome ↔ j + els.length ≤ most)
  | j, out, [], hj => by simpa [addrRangesPrint] using hj
  | j, out, el :: els, hj => by
    unfold addrRangesPrint
    by_cases hlt : j < most
    · rw [if_pos hlt]
      dsimp only
      rw [addrRangesPrint_isSome_iff most sep (j + 1) _ els hlt, List.length_cons]
      exact ⟨fun h => by omega, fun h => by omega⟩
    -- `LASSERT(j++ < most)` fails
    · rw [if_neg hlt, List.length_cons]
      exact ⟨fun h => absurd h (by simp), fun h => by omega⟩

/-- An address range of the LND's arity prints. -/
theorem printAddrlist_isSome {nf : Netstrfns} {els : List CfsExprList}
    (h : els.length = nf.nfAddrlist.arity) : (nf.printAddrlist count els).isSome := by
  unfold Netstrfns.printAddrlist
  cases hnf : nf.nfAddrlist with
  | num =>
    rw [hnf] at h
    rw [libcfsNumAddrRangePrint, addrRangesPrint_isSome_iff count 1 [] 0 [] els (Nat.zero_le 1)]
    simp only [Addrlist.arity] at h
    omega
  | ip =>
    rw [hnf] at h
    rw [libcfsIpAddrRangePrint, addrRangesPrint_isSome_iff count 4 ['.'] 0 [] els (Nat.zero_le 4)]
    simp only [Addrlist.arity] at h
    omega

/-- Address ranges of the LND's arity all print. -/
theorem addrrangesPrint_isSome (nr : Nidrange) :
    ∀ (ars : List Addrrange) (out : List Char),
      (∀ ar ∈ ars, ar.arNumaddrRanges.length = nr.nrNetstrfns.nfAddrlist.arity) →
      (addrrangesPrint count nr out ars).isSome
  | [], out, _ => rfl
  | ar :: ars, out, harity => by
    have hprint := printAddrlist_isSome (count - (if out.length = 0 then out
        else scnAppend count out [' ']).length) (harity ar List.mem_cons_self)
    obtain ⟨s, hs⟩ := Option.isSome_iff_exists.mp hprint
    simp only [addrrangesPrint, Option.bind_eq_bind, hs, Option.bind_some]
    exact addrrangesPrint_isSome nr ars _ fun ar' har' => harity ar' (List.mem_cons_of_mem ar har')

/-- On address ranges of the LND's arity, the loop of `cfs_print_nidlist`
faults exactly at a nidrange with `nr_all` and an address range. -/
theorem nidrangesPrint_eq_none_iff :
    ∀ (nrs : List Nidrange) (out : List Char),
      (∀ nr ∈ nrs, ∀ ar ∈ nr.nrAddrranges,
        ar.arNumaddrRanges.length = nr.nrNetstrfns.nfAddrlist.arity) →
      (nidrangesPrint count out nrs = none ↔ ∃ nr ∈ nrs, nr.nrAll = true ∧ nr.nrAddrranges ≠ [])
  | [], out, _ => by simp [nidrangesPrint]
  | nr :: nrs, out, harity => by
    have ih := nidrangesPrint_eq_none_iff nrs
    have hrest : ∀ nr ∈ nrs, ∀ ar ∈ nr.nrAddrranges,
        ar.arNumaddrRanges.length = nr.nrNetstrfns.nfAddrlist.arity :=
      fun nr' hnr' => harity nr' (List.mem_cons_of_mem nr hnr')
    simp only [nidrangesPrint, Option.bind_eq_bind, List.mem_cons, exists_eq_or_imp]
    generalize (if out.length = 0 then out else scnAppend count out [' ']) = out1
    cases hall : nr.nrAll with
    | false =>
      -- a nidrange without `*` prints its address ranges
      obtain ⟨s, hs⟩ := Option.isSome_iff_exists.mp
        (addrrangesPrint_isSome (count - out1.length) nr nr.nrAddrranges []
          (harity nr List.mem_cons_self))
      simp only [cfsPrintAddrranges, hs, Option.map_some, Option.bind_some, if_false,
        Bool.false_eq_true, false_and, false_or]
      exact ih _ hrest
    | true =>
      by_cases hempty : nr.nrAddrranges = []
      · simp only [hempty, if_true, Option.bind_some, ne_eq, not_true_eq_false, and_false, false_or]
        exact ih _ hrest
      -- `LASSERT(list_empty(&nr->nr_addrranges))` fails
      · simp [hempty]

end Printing

/-- On a well-formed list, `cfs_print_nidlist` trips its `LASSERT` exactly
when some nidrange has both `nr_all` and an address range. -/
theorem cfsPrintNidlist_eq_none_iff {count : Int} {nidlist : List Nidrange}
    (hwf : NidlistWF nidlist) (hcount : 0 < count) :
    cfsPrintNidlist count nidlist = none ↔
      ∃ nr ∈ nidlist, nr.nrAll = true ∧ nr.nrAddrranges ≠ [] := by
  rw [cfsPrintNidlist, if_neg (by omega)]
  exact nidrangesPrint_eq_none_iff count nidlist [] hwf.arity

/-- For every string `cfs_parse_nidlist` accepts, `cfs_print_nidlist` on the
list it builds faults exactly when one network has both `*` and an address
range. -/
theorem cfsParseNidlist_print_eq_none_iff {mem mem' : List Char} {len : Nat}
    {nidlist : List Nidrange} {count : Int}
    (h : cfsParseNidlist mem len = some (mem', some nidlist)) (hcount : 0 < count) :
    cfsPrintNidlist count nidlist = none ↔
      ∃ nr ∈ nidlist, nr.nrAll = true ∧ nr.nrAddrranges ≠ [] :=
  cfsPrintNidlist_eq_none_iff (cfsParseNidlist_wf h) hcount

/-- `*@tcp 1.2.3.4@tcp`: all of network `tcp`, and one address on it. -/
def starAndAddressOnTcp : List Char :=
  ['*', '@', 't', 'c', 'p', ' ', '1', '.', '2', '.', '3', '.', '4', '@', 't', 'c', 'p']

/-- Both nidranges of `starAndAddressOnTcp` land in the one nidrange of
`tcp`, with `nr_all` set and the address range `1.2.3.4` on it, and printing
that list trips the `LASSERT` whatever the size of the buffer. -/
theorem cfsPrintNidlist_star_and_address :
    ∃ nr, cfsParseNidlist starAndAddressOnTcp starAndAddressOnTcp.length =
        some (starAndAddressOnTcp, some [nr]) ∧
      nr.nrNetstrfns.nfType = sockLnd ∧ nr.nrAll = true ∧
      nr.nrAddrranges = [⟨[⟨[⟨1, 1, 1⟩]⟩, ⟨[⟨2, 2, 1⟩]⟩, ⟨[⟨3, 3, 1⟩]⟩, ⟨[⟨4, 4, 1⟩]⟩]⟩] ∧
      ∀ count : Nat, cfsPrintNidlist (count + 1) [nr] = none := by
  let nr : Nidrange := ⟨[⟨[⟨[⟨1, 1, 1⟩]⟩, ⟨[⟨2, 2, 1⟩]⟩, ⟨[⟨3, 3, 1⟩]⟩, ⟨[⟨4, 4, 1⟩]⟩]⟩], true,
    ⟨sockLnd, ['t', 'c', 'p'], .ip, .ip, .ip⟩, 0⟩
  have hparse : cfsParseNidlist starAndAddressOnTcp starAndAddressOnTcp.length =
      some (starAndAddressOnTcp, some [nr]) := by decide
  refine ⟨nr, hparse, rfl, rfl, rfl, fun count => ?_⟩
  exact (cfsParseNidlist_print_eq_none_iff hparse (by omega)).mpr
    ⟨nr, List.mem_singleton_self nr, rfl, List.cons_ne_nil _ _⟩

end Lustre.NidStrings
