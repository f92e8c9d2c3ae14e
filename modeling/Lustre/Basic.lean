import Mathlib

/-! # Error numbers and constants shared across Lustre

The Linux `errno` values the modelled functions return negated (or, in
`liblustreapi`, leave in `errno`), and the constants of the Lustre and
kernel headers that more than one of the modelled files reads.
-/

namespace Lustre

/-! ## Error numbers -/

/-- `EPERM`. -/
def eperm : Int := 1
/-- `ENOENT`. -/
def enoent : Int := 2
/-- `EIO`. -/
def eio : Int := 5
/-- `E2BIG`. -/
def e2big : Int := 7
/-- `EBADF`. -/
def ebadf : Int := 9
/-- `EAGAIN`. -/
def eagain : Int := 11
/-- `ENOMEM`. -/
def enomem : Int := 12
/-- `EBUSY`. -/
def ebusy : Int := 16
/-- `EEXIST`. -/
def eexist : Int := 17
/-- `ENODEV`. -/
def enodev : Int := 19
/-- `EINVAL`. -/
def einval : Int := 22
/-- `ENOSPC`. -/
def enospc : Int := 28
/-- `ERANGE`. -/
def erange : Int := 34
/-- `EBADSLT`. -/
def ebadslt : Int := 57
/-- `EPROTO`. -/
def eproto : Int := 71
/-- `EOVERFLOW`. -/
def eoverflow : Int := 75
/-- `EBADFD`. -/
def ebadfd : Int := 77
/-- `EOPNOTSUPP`. -/
def eopnotsupp : Int := 95
/-- `ENOBUFS`. -/
def enobufs : Int := 105
/-- `ENOTCONN`. -/
def enotconn : Int := 107
/-- `ETIMEDOUT`. -/
def etimedout : Int := 110
/-- `EALREADY`. -/
def ealready : Int := 114
/-- `ESTALE`. -/
def estale : Int := 116
/-- `EDQUOT`. -/
def edquot : Int := 122
/-- `ERESTARTSYS`, the kernel's own: a wait interrupted by a signal. -/
def erestartsys : Int := 512

/-! ## Constants of the headers -/

/-- `PAGE_SHIFT`, of a host with 4 KiB pages. -/
def pageShift : Nat := 12
/-- `PAGE_SIZE`. -/
def pageSize : Nat := 4096
/-- `LUSTRE_EOF`. -/
def lustreEof : Nat := 0xffffffffffffffff
/-- `OBD_OBJECT_EOF`: the offset past every byte. -/
def obdObjectEof : UInt64 := 0xFFFFFFFFFFFFFFFF
/-- `LNET_NID_ANY`, `(lnet_nid_t) -1`. -/
def lnetNidAny : UInt64 := 0xFFFFFFFFFFFFFFFF
/-- `LOV_PATTERN_RAID0`. -/
def lovPatternRaid0 : Nat := 0x001
/-- `LOV_PATTERN_MDT`. -/
def lovPatternMdt : Nat := 0x100
/-- `LOV_PATTERN_OVERSTRIPING`. -/
def lovPatternOverstriping : Nat := 0x200
/-- `LCME_FL_NOSYNC`. -/
def lcmeFlNosync : Nat := 0x20

end Lustre
