import Mathlib
import Lustre.Basic
import Lustre.Lib.Bytes
import Lustre.Lib.Scanf

/-! # LNet network identifiers and their strings

`lnet/lnet/nidstrings.c`. A NID is 64 bits: a 32-bit network, itself a
16-bit LND type and a 16-bit network number, above a 32-bit address. The
table `libcfs_netstrfns` gives, for each known LND, its name and how its
addresses are written and read: as a dotted quad for the IP LNDs, as a
decimal number otherwise, and not at all for the loopback LND, whose only
address is 0.

This module is the faithful layer: the bit-field macros, the table (its
function pointers as tags), `libcfs_nid2str_r` over a buffer of a given size,
and `libcfs_str2net_internal` / `libcfs_str2nid` with the `sscanf` formats
they use, read by `CFormat.vsscanf`. C strings are character lists
(`Lustre.Lib.Scanf`); `snprintf` keeps the first `size - 1` characters.
-/

namespace Lustre.NidStrings

open ByteCodec CFormat

/-! ## NIDs and networks -/

/-- `LNET_NIDADDR`. -/
def lnetNidAddr (nid : UInt64) : UInt32 := (nid &&& 0xffffffff).toUInt32

/-- `LNET_NIDNET`. -/
def lnetNidNet (nid : UInt64) : UInt32 := ((nid >>> 32) &&& 0xffffffff).toUInt32

/-- `LNET_MKNID`. -/
def lnetMkNid (net addr : UInt32) : UInt64 := (net.toUInt64 <<< 32) ||| addr.toUInt64

/-- `LNET_NETNUM`. -/
def lnetNetNum (net : UInt32) : UInt32 := net &&& 0xffff

/-- `LNET_NETTYP`. -/
def lnetNetTyp (net : UInt32) : UInt32 := (net >>> 16) &&& 0xffff

/-- `LNET_MKNET`. -/
def lnetMkNet (type num : UInt32) : UInt32 := (type <<< 16) ||| num

/-- `LNET_NIDSTR_SIZE`. -/
def lnetNidstrSize : Nat := 32

def sockLnd : UInt32 := 2
def o2ibLnd : UInt32 := 5
def loLnd : UInt32 := 9
def gniLnd : UInt32 := 13
def gniIpLnd : UInt32 := 14
def ptl4Lnd : UInt32 := 15

/-- `LNET_NID_LO_0`. -/
def lnetNidLo0 : UInt64 := lnetMkNid (lnetMkNet loLnd 0) 0

/-! ## The LND table -/

/-- `nf_addr2str`: `libcfs_decnum_addr2str` or `libcfs_ip_addr2str`. -/
inductive Addr2str where
  | decnum
  | ip
  deriving DecidableEq, Repr

/-- `nf_str2addr`: `libcfs_lo_str2addr`, `libcfs_ip_str2addr` or
`libcfs_num_str2addr`. -/
inductive Str2addr where
  | lo
  | ip
  | num
  deriving DecidableEq, Repr

/-- `nf_parse_addrlist`, `nf_print_addrlist` and `nf_match_addr`, which the
table always sets together: the numeric ones (`libcfs_num_parse`,
`libcfs_num_addr_range_print`, `libcfs_num_match`) or the IP ones
(`cfs_ip_addr_parse`, `libcfs_ip_addr_range_print`, `cfs_ip_addr_match`). -/
inductive Addrlist where
  | num
  | ip
  deriving DecidableEq, Repr

/-- `struct netstrfns`, without `nf_modname`. -/
structure Netstrfns where
  nfType : UInt32
  nfName : List Char
  nfAddr2str : Addr2str
  nfStr2addr : Str2addr
  nfAddrlist : Addrlist
  deriving DecidableEq, Repr

/-- `libcfs_netstrfns[]`, in its order. -/
def libcfsNetstrfns : List Netstrfns :=
  [ { nfType := loLnd, nfName := ['l', 'o'], nfAddr2str := .decnum, nfStr2addr := .lo,
      nfAddrlist := .num },
    { nfType := sockLnd, nfName := ['t', 'c', 'p'], nfAddr2str := .ip, nfStr2addr := .ip,
      nfAddrlist := .ip },
    { nfType := o2ibLnd, nfName := ['o', '2', 'i', 'b'], nfAddr2str := .ip, nfStr2addr := .ip,
      nfAddrlist := .ip },
    { nfType := gniLnd, nfName := ['g', 'n', 'i'], nfAddr2str := .decnum, nfStr2addr := .num,
      nfAddrlist := .num },
    { nfType := gniIpLnd, nfName := ['g', 'i', 'p'], nfAddr2str := .ip, nfStr2addr := .ip,
      nfAddrlist := .ip },
    { nfType := ptl4Lnd, nfName := ['p', 't', 'l', 'f'], nfAddr2str := .decnum, nfStr2addr := .num,
      nfAddrlist := .num } ]

/-- `libcfs_lnd2netstrfns`. -/
def libcfsLnd2netstrfns (lnd : UInt32) : Option Netstrfns :=
  libcfsNetstrfns.find? fun nf => nf.nfType == lnd

/-! ## Writing -/

/-- `snprintf(buf, size, ...)` of the text `s`: at most `size - 1`
characters. -/
def snprintf (size : Nat) (s : List Char) : List Char := s.take (size - 1)

/-- `libcfs_ip_addr2str`: `"%u.%u.%u.%u"` of the four bytes. -/
def libcfsIpAddr2str (addr : UInt32) : List Char :=
  fmtNat 10 ((addr >>> 24) &&& 0xff).toNat ++ '.' :: fmtNat 10 ((addr >>> 16) &&& 0xff).toNat ++
    '.' :: fmtNat 10 ((addr >>> 8) &&& 0xff).toNat ++ '.' :: fmtNat 10 (addr &&& 0xff).toNat

/-- `libcfs_decnum_addr2str`: `"%u"`. -/
def libcfsDecnumAddr2str (addr : UInt32) : List Char := fmtNat 10 addr.toNat

/-- `nf->nf_addr2str`, before `snprintf` cuts it to the buffer. -/
def Netstrfns.addr2str (nf : Netstrfns) (addr : UInt32) : List Char :=
  match nf.nfAddr2str with
  | .decnum => libcfsDecnumAddr2str addr
  | .ip => libcfsIpAddr2str addr

/-- The network part `libcfs_nid2str_r` appends: `"@%s"` for network number
0, `"@%s%u"` otherwise. -/
def netSuffix (nf : Netstrfns) (nnum : UInt32) : List Char :=
  '@' :: nf.nfName ++ (if nnum = 0 then [] else fmtNat 10 nnum.toNat)

/-- `libcfs_nid2str_r(nid, buf, buf_size)`: the string left in `buf`. -/
def libcfsNid2strR (nid : UInt64) (bufSize : Nat) : List Char :=
  let addr := lnetNidAddr nid
  let net := lnetNidNet nid
  let nnum := lnetNetNum net
  let lnd := lnetNetTyp net
  if nid = lnetNidAny then
    -- strncpy(buf, "<?>", buf_size); buf[buf_size - 1] = '\0'
    snprintf bufSize ['<', '?', '>']
  else
    match libcfsLnd2netstrfns lnd with
    | none =>
      snprintf bufSize (fmtNat 16 addr.toNat ++ ['@', '<'] ++ fmtNat 10 lnd.toNat ++ [':'] ++
        fmtNat 10 nnum.toNat ++ ['>'])
    | some nf =>
      let s := snprintf bufSize (nf.addr2str addr)
      s ++ snprintf (bufSize - s.length) (netSuffix nf nnum)

/-! ## Reading -/

/-- `"%u.%u.%u.%u%n"`. -/
def ipAddrFormat : List ScanDirective :=
  [.conv 10, .lit '.', .conv 10, .lit '.', .conv 10, .lit '.', .conv 10, .count]

/-- `"0x%x%n"`. -/
def hexLowerFormat : List ScanDirective := [.lit '0', .lit 'x', .conv 16, .count]

/-- `"0X%x%n"`. -/
def hexUpperFormat : List ScanDirective := [.lit '0', .lit 'X', .conv 16, .count]

/-- `"%u%n"`. -/
def decimalFormat : List ScanDirective := [.conv 10, .count]

/-- `libcfs_ip_str2addr(str, nob, &addr)`; `n` starts at `nob` (the
"XscanfX" trick), so a scan that stops at the end of the string passes. -/
def libcfsIpStr2addr (str : List Char) (nob : Nat) : Option UInt32 :=
  let r := vsscanf ipAddrFormat str 0
  let a := UInt32.ofNat (r.2.getD 0 0)
  let b := UInt32.ofNat (r.2.getD 1 0)
  let c := UInt32.ofNat (r.2.getD 2 0)
  let d := UInt32.ofNat (r.2.getD 3 0)
  let n := r.2.getD 4 nob
  if r.1 ≥ 4 ∧ n = nob ∧ a &&& ~~~0xff = 0 ∧ b &&& ~~~0xff = 0 ∧ c &&& ~~~0xff = 0 ∧
      d &&& ~~~0xff = 0 then
    some ((a <<< 24) ||| (b <<< 16) ||| (c <<< 8) ||| d)
  else none

/-- One `sscanf(str, fmt, addr, &n) >= 1 && n == nob` attempt of
`libcfs_num_str2addr`. -/
def numAttempt (fmt : List ScanDirective) (str : List Char) (nob : Nat) : Option UInt32 :=
  let r := vsscanf fmt str 0
  if r.1 ≥ 1 ∧ r.2.getD 1 nob = nob then some (UInt32.ofNat (r.2.getD 0 0)) else none

/-- `libcfs_num_str2addr`: hexadecimal with either prefix, then decimal. -/
def libcfsNumStr2addr (str : List Char) (nob : Nat) : Option UInt32 :=
  match numAttempt hexLowerFormat str nob with
  | some addr => some addr
  | none =>
    match numAttempt hexUpperFormat str nob with
    | some addr => some addr
    | none => numAttempt decimalFormat str nob

/-- `libcfs_lo_str2addr`: every string is address 0. -/
def libcfsLoStr2addr (_str : List Char) (_nob : Nat) : Option UInt32 := some 0

/-- `nf->nf_str2addr(str, nob, &addr)`: the address when it returns 1. -/
def Netstrfns.str2addr (nf : Netstrfns) (str : List Char) (nob : Nat) : Option UInt32 :=
  match nf.nfStr2addr with
  | .lo => libcfsLoStr2addr str nob
  | .ip => libcfsIpStr2addr str nob
  | .num => libcfsNumStr2addr str nob

/-- The table entry whose name starts `str`, first in table order:
`strncmp(str, nf->nf_name, strlen(nf->nf_name)) == 0`. -/
def netstrfnsByPrefix (str : List Char) : Option Netstrfns :=
  libcfsNetstrfns.find? fun nf => strncmp Char.toNat str nf.nfName nf.nfName.length = 0

/-- `libcfs_str2net_internal(str, &net)`: the entry and the network. -/
def libcfsStr2netInternal (str : List Char) : Option (Netstrfns × UInt32) :=
  match netstrfnsByPrefix str with
  | none => none
  | some nf =>
    let nob := nf.nfName.length
    if str.length = nob then some (nf, lnetMkNet nf.nfType 0)
    -- net number not allowed
    else if nf.nfType = loLnd then none
    else
      let rest := str.drop nob
      let r := vsscanf decimalFormat rest 0
      if r.1 < 1 ∨ r.2.getD 1 rest.length ≠ rest.length then none
      else some (nf, lnetMkNet nf.nfType (UInt32.ofNat (r.2.getD 0 0)))

/-- `libcfs_str2nid`: the address before the first `@` in the network's
format, a `tcp` address when there is no `@`; `LNET_NID_ANY` on failure. -/
def libcfsStr2nid (str : List Char) : UInt64 :=
  match str.idxOf? '@' with
  | some sep =>
    match libcfsStr2netInternal (str.drop (sep + 1)) with
    | none => lnetNidAny
    | some (nf, net) =>
      match nf.str2addr str sep with
      | some addr => lnetMkNid net addr
      | none => lnetNidAny
  | none =>
    match libcfsLnd2netstrfns sockLnd with
    -- LASSERT(nf != NULL): the table has SOCKLND
    | none => lnetNidAny
    | some nf =>
      match nf.str2addr str str.length with
      | some addr => lnetMkNid (lnetMkNet sockLnd 0) addr
      | none => lnetNidAny

end Lustre.NidStrings
