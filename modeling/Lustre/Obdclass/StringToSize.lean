import Mathlib
import Lustre.Basic
import Lustre.Lib.CString
import Lustre.Lib.Fls
import Lustre.Lib.Scanf

/-! # Sizes with units in tunables: `string_to_size` and `sysfs_memparse`

`lustre/obdclass/lprocfs_status.c`. `string_to_size(size, buffer, count)`
reads a number with an optional fraction of at most three digits and an
optional unit: `K` to `E` with an optional `iB` for powers of 1024, `kB` to
`EB` for powers of 1000. It returns `count` and stores the value in `*size`,
or returns an error. `sysfs_memparse` trims trailing blanks, appends a default
unit to a bare number and calls it.

The steps of `string_to_size`, each its own definition below:

1. the unit table: base 10 when the first `B` of the string does not follow
   an `i` (`sizeUnits`);
2. the `do ... while (i--)` loop that looks for the units of the table from
   the largest down (`unitSearch`), which fixes `blk_size` and where the
   number ends;
3. without a unit, a lone `B` (or `B\n`) may end the string;
4. with a unit, the fraction after a `.`: three digits, padded with zeros
   (`fracDigits`), multiplied by `blk_size` and divided by 1000, after the
   bit length test `fls64(frac) + fls64(blk_size) - 1 > 64`;
5. `numbers_only:` the whole part by `kstrtoull`, the same bit length test,
   and `*size += whole * blk_size` (`numbersOnly`).

The buffer is the C string, and the `u64` arithmetic is `UInt64`.
`*(end - 1)` for a `B` at the very start reads the byte before the buffer;
the model reads the `B` itself there, which is not an `i`.
-/

namespace Lustre.Lprocfs

open CFormat CArith

/-- The errno a `kstrto*` failure returns. -/
def kstrtoxErrno : KstrtoxError → Int
  | .range => -erange
  | .inval => -einval

/-- `enum string_size_units`. -/
inductive StringUnits where
  | units10
  | units2
  deriving DecidableEq, Repr

/-- `units_str[unit]`: `units_10` and `units_2`. -/
def unitsStr : StringUnits → List (List Char)
  | .units10 => [['k', 'B'], ['M', 'B'], ['G', 'B'], ['T', 'B'], ['P', 'B'], ['E', 'B']]
  | .units2 => [['K'], ['M'], ['G'], ['T'], ['P'], ['E']]

/-- `coeff[unit]`. -/
def coeff : StringUnits → Nat
  | .units10 => 1000
  | .units2 => 1024

/-- The `"0123456789"` that `strspn` accepts. -/
def decimalDigits : List Char := ['0', '1', '2', '3', '4', '5', '6', '7', '8', '9']

/-- `end = strstr(buffer, "B"); if (end && *(end - 1) != 'i') unit =
STRING_UNITS_10;` -/
def sizeUnits (buffer : List Char) : StringUnits :=
  match strstr buffer ['B'] with
  | some p => if charAt buffer (p - 1) ≠ 'i' then .units10 else .units2
  | none => .units2

/-- The loop `do { end = strnstr(buffer, units_str[unit][i], count); ... }
while (i--)` from `i` down: the index of the unit found and where it starts. -/
def unitSearch (buffer : List Char) (count : Nat) (unit : StringUnits) : Nat → Option (Nat × Nat)
  | 0 => (strnstr buffer ((unitsStr unit).getD 0 []) count).map fun p => (0, p)
  | i + 1 =>
    match strnstr buffer ((unitsStr unit).getD (i + 1) []) count with
    | some p => some (i + 1, p)
    | none => unitSearch buffer count unit i

/-- `blk_size` after `for (; i >= 0; i--) blk_size *= coeff[unit]`; the
largest, `1000^6` and `1024^6`, fit a `u64`. -/
def blkSize (unit : StringUnits) (i : Nat) : UInt64 := UInt64.ofNat (coeff unit ^ (i + 1))

/-- `rem` after `memcpy(rem, end, off)` into `"000"`, for the `.` at `dot`:
the first `min(3, strspn(end, "0123456789"))` characters after it, padded
with the zeros of `rem`. -/
def fracDigits (buffer : List Char) (dot : Nat) : List Char :=
  let rest := buffer.drop (dot + 1)
  let off := min 3 (strspn rest decimalDigits)
  rest.take off ++ ['0', '0', '0'].drop off

/-- From `numbers_only:` on, with `*size` at `size`: the first `len`
characters through `snprintf` into `kernbuf[22]` and `kstrtoull`, the bit
length test, and `*size += whole * blk_size`. -/
def numbersOnly (size : UInt64) (buffer : List Char) (len : Nat) (blk : UInt64) (count : Nat) :
    UInt64 × Int :=
  match kstrtoull (scnprintf 22 (buffer.take len)) 10 with
  | .error e => (size, kstrtoxErrno e)
  | .ok whole =>
    let whole := UInt64.ofNat whole
    -- `fls64` returns an `int`; for values this small the test reads the same in `Nat`
    if whole ≠ 0 ∧ fls64 whole + fls64 blk - 1 > 64 then (size, -eoverflow)
    else (size + whole * blk, count)

/-- `string_to_size(size, buffer, count)`: what `*size` holds after the call
(it was `size` before), and the value returned. -/
def stringToSize (size : UInt64) (buffer : List Char) (count : Nat) : UInt64 × Int :=
  if count ≥ 22 then (size, -e2big)
  else
    let unit := sizeUnits buffer
    match unitSearch buffer count unit 5 with
    | none =>
      -- "'B' is only acceptable letter at this point"
      match strnchr buffer count 'B' with
      | some len =>
        if count - len > 2 ∨ (count - len = 2 ∧ buffer.drop len ≠ ['B', '\n']) then (0, -einval)
        else numbersOnly 0 buffer len 1 count
      | none => numbersOnly 0 buffer count 1 count
    | some (i, len) =>
      let blk := blkSize unit i
      match strnchr buffer count '.' with
      | none => numbersOnly 0 buffer len blk count
      | some dot =>
        match kstrtoull (fracDigits buffer dot) 10 with
        | .error e => (0, kstrtoxErrno e)
        | .ok frac =>
          let frac := UInt64.ofNat frac
          if fls64 frac + fls64 blk - 1 > 64 then (0, -eoverflow)
          -- `frac *= blk_size; do_div(frac, 1000); *size += frac;`
          else numbersOnly (frac * blk / 1000) buffer dot blk count

/-- The kernel's `isalpha`: the ASCII letters and the Latin-1 ones. -/
def isAlpha (c : Char) : Bool :=
  let n := c.toNat
  (65 ≤ n && n ≤ 90) || (97 ≤ n && n ≤ 122) || (192 ≤ n && n ≤ 255 && n != 215 && n != 247)

/-- `sysfs_memparse(buffer, count, val, defunit)`: what `*val` holds after
the call (it was `val` before), and the value returned. -/
def sysfsMemparse (val : UInt64) (buffer : List Char) (defunit : List Char) : UInt64 × Int :=
  let count := (buffer.reverse.dropWhile isSpace).length
  let result (r : UInt64 × Int) : UInt64 × Int := (r.1, if r.2 < 0 then r.2 else 0)
  if count = 0 then (val, -einval)
  -- "If there isn't already a unit on this value, append @defunit."
  else if !isAlpha (charAt buffer (count - 1)) && charAt defunit 0 != 'B' then
    if count + 3 ≥ 23 then (val, -e2big)
    else
      let param := scnprintf 23 (buffer.take count ++ defunit)
      result (stringToSize val param param.length)
  else result (stringToSize val buffer count)

end Lustre.Lprocfs
