import Mathlib

/-! # Lock modes

`enum ldlm_mode` (`lustre_idl.h`) and the compatibility matrix
`lck_compat_array` (`ldlm_lib.c`), built from the `LCK_COMPAT_*` masks of
`lustre_dlm.h`. `lockmode_compat(exist, new)` tests the bit of `new` in the
mask of `exist`; here a mask is the list of the modes whose bits it sets.
-/

namespace Lustre.Ldlm

/-- `enum ldlm_mode`, without `LCK_MINMODE` and `LCK_MAXMODE`, which
`lockmode_verify` excludes. -/
inductive LdlmMode where
  | ex
  | pw
  | pr
  | cw
  | cr
  | nl
  | group
  | cos
  deriving DecidableEq, Repr

/-- `lck_compat_array[mode]`: `LCK_COMPAT_EX`, `LCK_COMPAT_PW` and so on. -/
def lckCompatArray : LdlmMode → List LdlmMode
  | .ex => [.nl]
  | .pw => [.nl, .cr]
  | .pr => [.nl, .cr, .pr]
  | .cw => [.nl, .cr, .cw]
  | .cr => [.nl, .cr, .cw, .pr, .pw]
  | .nl => [.nl, .cr, .cw, .pr, .pw, .ex, .group]
  | .group => [.group, .nl]
  | .cos => [.cos]

/-- `lockmode_compat(exist_mode, new_mode)`. -/
def lockmodeCompat (existMode newMode : LdlmMode) : Bool := newMode ∈ lckCompatArray existMode

end Lustre.Ldlm
