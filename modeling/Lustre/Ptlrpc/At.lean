import Mathlib
import Lustre.Lib.CArith

/-! # Adaptive timeouts

`lustre/ptlrpc/import.c` and `lustre/include/lustre_import.h`. An
`adaptive_timeout` keeps the worst service time seen in each of `AT_BINS`
bins of `binlimit` seconds, bin 0 starting at `at_binstart` and the others
counting back from it. `at_measured` adds a sample: the first one clears
the default from the history, one within bin 0 raises that bin, and a later
one moves the bins over by as many bins as have passed and starts bin 0
afresh. The current timeout is the worst of the bins, raised to `at_min`
and, unless `at_max` is 0, lowered to `at_max`; the call returns the old
current timeout when it changed.

The types are the source's: `timeout_t` is a 32-bit `int`, the bins and the
tunables `at_min`, `at_max` and `at_history` are `unsigned int`, and times
are `time64_t`. A bin read as `timeout_t` and a tunable compared as one go
through `CArith.narrowInt`; a `timeout_t` stored in a bin is taken modulo
`2^32`; the distance from `at_binstart` is cast to `u32`, and the number of
bins it spans is stored in an `int`. Times stay far from the 64-bit limits.
The lock is held; the debug messages are left out. A failed `LASSERT` is
`none`.
-/

namespace Lustre.Ptlrpc

/-- `AT_BINS`. -/
def atBins : Nat := 4

/-- `AT_FLG_NOHIST`. -/
def atFlgNohist : Nat := 0x1

/-- `struct adaptive_timeout`, without its lock. -/
structure AdaptiveTimeout where
  atBinstart : Int
  atHist : List Nat
  atFlags : Nat
  atCurrentTimeout : Int
  atWorstTimeoutEver : Int
  atWorstTimestamp : Int
  deriving DecidableEq, Repr

/-- The tunables `at_min`, `at_max` and `at_history`. -/
structure AtTunables where
  atMin : Nat
  atMax : Nat
  atHistory : Nat
  deriving DecidableEq, Repr

/-- `at_init(at, timeout, flags)`, with `ktime_get_real_seconds()` at `now`:
the structure zeroed, then `at_reset`. -/
def atInit (timeout : Int) (flags : Nat) (now : Int) : AdaptiveTimeout :=
  ⟨0, List.replicate atBins 0, flags, timeout, timeout, now⟩

/-- `binlimit`: `max_t(long, at_history / AT_BINS, 1)`. -/
def atBinlimit (tun : AtTunables) : Int := max ((tun.atHistory / atBins : Nat) : Int) 1

/-- A `timeout_t` stored in an `unsigned int`. -/
def toUint (x : Int) : Nat := (x % 2 ^ 32).toNat

/-- The loop that moves the bins over by `shift`: from bin `i - 1` down to
bin 0, a bin at `shift` or above takes the bin `shift` below it and raises
`maxv`; the others are cleared. -/
def atShiftBins (shift : Int) : Nat → List Nat × Int → List Nat × Int
  | 0, acc => acc
  | i + 1, (hist, maxv) =>
    if shift ≤ i then
      let v := hist.getD (i - shift).toNat 0
      atShiftBins shift i (hist.set i v, max maxv (CArith.narrowInt v))
    else atShiftBins shift i (hist.set i 0, maxv)

/-- The three branches of `at_measured` that record a positive sample
`timeout` at time `now`. -/
def atRecord (tun : AtTunables) (now : Int) (adt : AdaptiveTimeout) (timeout : Int) : Option AdaptiveTimeout :=
  let binlimit := atBinlimit tun
  if adt.atBinstart = 0 then
    -- the first sample removes the default from the history
    some { adt with
      atCurrentTimeout := timeout
      atWorstTimeoutEver := timeout
      atWorstTimestamp := now
      atHist := adt.atHist.set 0 (toUint timeout)
      atBinstart := now }
  else if now - adt.atBinstart < binlimit then
    -- in bin 0
    some { adt with
      atHist := adt.atHist.set 0 (toUint (max timeout (CArith.narrowInt (adt.atHist.getD 0 0))))
      atCurrentTimeout := max timeout adt.atCurrentTimeout }
  else
    let shift := CArith.narrowInt (((now - adt.atBinstart) % 2 ^ 32).toNat / binlimit.toNat)
    -- LASSERT(shift > 0)
    if shift ≤ 0 then none
    else
      let r := atShiftBins shift atBins (adt.atHist, timeout)
      some { adt with
        atHist := r.1.set 0 (toUint timeout)
        atCurrentTimeout := r.2
        atBinstart := adt.atBinstart + shift * binlimit }

/-- The end of `at_measured`: the worst timeout ever, the history flag, and
the bounds `at_max` (when not 0) and `at_min`, compared as `timeout_t`. -/
def atBound (tun : AtTunables) (now : Int) (adt : AdaptiveTimeout) (timeout : Int) : AdaptiveTimeout :=
  let adt :=
    if adt.atCurrentTimeout > adt.atWorstTimeoutEver then
      { adt with atWorstTimeoutEver := adt.atCurrentTimeout, atWorstTimestamp := now }
    else adt
  -- only keep the last reported value
  let current := if adt.atFlags &&& atFlgNohist ≠ 0 then timeout else adt.atCurrentTimeout
  let current := if tun.atMax > 0 then min current (CArith.narrowInt tun.atMax) else current
  { adt with atCurrentTimeout := max current (CArith.narrowInt tun.atMin) }

/-- `at_measured(at, timeout)` at time `now`: the old current timeout if it
changed, else 0, and the structure after. -/
def atMeasured (tun : AtTunables) (now : Int) (adt : AdaptiveTimeout) (timeout : Int) :
    Option (Int × AdaptiveTimeout) :=
  -- negative timeouts and 0's don't count
  if timeout ≤ 0 then some (0, adt)
  else
    (atRecord tun now adt timeout).map fun adt' =>
      let adt' := atBound tun now adt' timeout
      (if adt'.atCurrentTimeout ≠ adt.atCurrentTimeout then adt.atCurrentTimeout else 0, adt')

end Lustre.Ptlrpc
