import Mathlib
import Lustre.Lib.Scanf

/-! # Tokens, numbers and range expressions of `libcfs_string.c`

The parsers of LNet's configuration strings walk a `struct cfs_lstr` (a
pointer into the string and a length) with `cfs_gettok`, read numbers with
`cfs_str2num_check` and build `struct cfs_expr_list`s of range expressions
`<number>`, `<number>-<number>` and `<number>-<number>/<number>`.

The string is parsed in place: `cfs_str2num_check` calls `strim`, which
writes a NUL after the last non-blank character of the rest of the string, so
every parsing routine here takes the buffer and gives back the buffer it
leaves. A pointer is an offset into the buffer, `none` for `NULL`; a routine
returns `none` when it dereferences `NULL` (an oops), and otherwise the
buffer and its result, `none` for an error return. Allocations are taken to
succeed: their `-ENOMEM` paths fail the parse like the `-EINVAL` ones.
Dividing by a zero stride in `cfs_expr_list_match` traps, and is `none` there.

`cfsTokenLoop` is the loop `while (src.ls_str != NULL)` over `cfs_gettok`
tokens that three parsers share, and `cfsTokenLoop_inv` is its invariant
rule. Its fuel is the length of the string plus one: every turn but the
last takes at least one character.
-/

namespace Lustre.LibcfsString

open CFormat

/-! ## Tokens -/

/-- `struct cfs_lstr`: where the string starts in the buffer (`none` for
`NULL`) and how many characters it has. -/
structure Lstr where
  lsStr : Option Nat
  lsLen : Nat
  deriving DecidableEq, Repr

/-- The loop of `cfs_gettok` that skips leading white space: where the string
starts after it, and the length left. -/
def skipLeading (mem : List Char) : Nat → Nat → Nat × Nat
  | p, 0 => (p, 0)
  | p, len + 1 => if isSpace (charAt mem p) then skipLeading mem (p + 1) len else (p, len + 1)

/-- `memchr(p, c, n)`. -/
def memchr (mem : List Char) (c : Char) : Nat → Nat → Option Nat
  | _, 0 => none
  | p, n + 1 => if charAt mem p = c then some p else memchr mem c (p + 1) n

/-- The loop `while (--end != res->ls_str) if (!isspace(*end)) break;` that
drops the blanks at the end of a token starting at `start`, with `end` at
`start + j` after its first decrement: the length of the token. -/
def trimmedLen (mem : List Char) (start : Nat) : Nat → Nat
  | 0 => 1
  | j + 1 => if isSpace (charAt mem (start + j + 1)) then trimmedLen mem start j else j + 2

/-- `cfs_gettok(next, delim, res)`: the string left in `next`, and the token
`res` when it returns 1. -/
def cfsGettok (mem : List Char) (next : Lstr) (delim : Char) : Lstr × Option Lstr :=
  match next.lsStr with
  | none => (next, none)
  | some p =>
    let (p, len) := skipLeading mem p next.lsLen
    -- white space only, or the delimiter first
    if len = 0 then (⟨some p, len⟩, none)
    else if charAt mem p = delim then (⟨some p, len⟩, none)
    else
      match memchr mem delim p len with
      | none => (⟨none, len⟩, some ⟨some p, trimmedLen mem p (len - 1)⟩)
      | some e => (⟨some (e + 1), len - (e - p + 1)⟩, some ⟨some p, trimmedLen mem p (e - p - 1)⟩)

/-! ## The token loop -/

section TokenLoop

variable {σ : Type} (delim : Char) (body : List Char → Lstr → σ → Option (List Char × Option σ))

/-- The loop `while (src.ls_str != NULL)` of `cfs_expr_list_parse`,
`cfs_ip_addr_parse` and `cfs_parse_nidlist`: take the next token up to
`delim`, failing when there is none, and hand it to `body`, which updates the
state `st` or fails. `fuel` bounds the iterations. -/
def cfsTokenLoop : Nat → List Char → Lstr → σ → Option (List Char × Option σ)
  | _, mem, ⟨none, _⟩, st => some (mem, some st)
  | 0, mem, ⟨some _, _⟩, _ => some (mem, none)
  | fuel + 1, mem, ⟨some p, len⟩, st =>
    match cfsGettok mem ⟨some p, len⟩ delim with
    | (_, none) => some (mem, none)
    | (src, some tok) =>
      match body mem tok st with
      | none => none
      | some (mem, none) => some (mem, none)
      | some (mem, some st) => cfsTokenLoop fuel mem src st

/-- The invariant rule of the loop: a property of the state that every body
step keeps holds of the state the loop ends with. -/
theorem cfsTokenLoop_inv (P : σ → Prop)
    (hbody : ∀ mem tok st mem' st', body mem tok st = some (mem', some st') → P st → P st') :
    ∀ fuel mem src st mem' st', cfsTokenLoop delim body fuel mem src st = some (mem', some st') →
      P st → P st'
  | _, mem, ⟨none, _⟩, st, mem', st', h, hst => by
    simp only [cfsTokenLoop] at h
    cases h
    exact hst
  | 0, _, ⟨some _, _⟩, _, _, _, h, _ => by simp [cfsTokenLoop] at h
  | fuel + 1, mem, ⟨some p, len⟩, st, mem', st', h, hst => by
    simp only [cfsTokenLoop] at h
    rcases hg : cfsGettok mem ⟨some p, len⟩ delim with ⟨src, _ | tok⟩
    · rw [hg] at h
      cases h
    · rw [hg] at h
      simp only at h
      rcases hb : body mem tok st with _ | ⟨mem'', _ | st''⟩
      · rw [hb] at h
        cases h
      · rw [hb] at h
        cases h
      · rw [hb] at h
        exact cfsTokenLoop_inv P hbody fuel mem'' src st'' mem' st' h (hbody _ _ _ _ _ hb hst)

end TokenLoop

/-! ## Numbers -/

/-- What `cfs_str2num_check` leaves behind: its result, the value
`kstrtouint` stored in `*num` (it stores one whenever the conversion
succeeds, also when the check then fails), and the buffer, where `strim` may
have written a NUL. -/
structure Str2num where
  ok : Bool
  num : Option Nat
  mem : List Char
  deriving DecidableEq, Repr

/-- The scan of `cfs_str2num_check` from `endp` over `n` positions: where it
stopped, and whether it saw only hex digits and signs. -/
def numberScan (mem : List Char) : Nat → Nat → Nat × Bool
  | e, 0 => (e, true)
  | e, n + 1 =>
    let c := charAt mem e
    if !isDigitOf 16 c && c != '-' && c != '+' then (e, false) else numberScan mem (e + 1) n

/-- `cfs_str2num_check(str, nob, num, min, max)`; `none` for a `NULL` `str`.
The scan stops at `str + min(strlen(endp), nob)`, where `endp` is what
`strim` returned, and `kstrtouint` reads from `str` itself. -/
def cfsStr2numCheck (mem : List Char) (str : Option Nat) (nob : Int) (min max : Nat) :
    Option Str2num := do
  let str ← str
  let (mem, endp) := strim mem str
  let len : Int := Min.min (strlen mem endp : Int) nob
  let (endp, allNumbers) := numberScan mem endp ((str : Int) + len - endp).toNat
  -- "eat trailing space": the cut moves back onto the last character read
  let (endp, allNumbers) :=
    if !allNumbers && isSpace (charAt mem endp) then (endp - 1, true) else (endp, allNumbers)
  -- the string is cut at `endp` for `kstrtouint`, and the cut undone after
  match kstrtouint (cstr (mem.set endp '\x00') str) 0 with
  | .ok v => some ⟨allNumbers && decide (min ≤ v) && decide (v ≤ max), some v, mem⟩
  | .error _ => some ⟨false, none, mem⟩

/-! ## Range expressions -/

/-- `struct cfs_range_expr`: the values from `re_lo` to `re_hi` in steps of
`re_stride`. -/
structure CfsRangeExpr where
  reLo : Nat
  reHi : Nat
  reStride : Nat
  deriving DecidableEq, Repr

/-- `struct cfs_expr_list`: its list `el_exprs`. -/
structure CfsExprList where
  elExprs : List CfsRangeExpr
  deriving DecidableEq, Repr

/-- `src->ls_len == 1 && src->ls_str[0] == '*'`. -/
def isStar (mem : List Char) (src : Lstr) : Option Bool :=
  if src.lsLen = 1 then src.lsStr.map fun p => charAt mem p == '*' else some false

/-- `cfs_range_expr_parse(src, min, max, bracketed, expr)`. The expression
is allocated zeroed and its fields are written by every conversion that
succeeds, so a path that reaches `out` without setting one keeps what is
there. -/
def cfsRangeExprParse (mem : List Char) (src : Lstr) (min max : Nat) (bracketed : Bool) :
    Option (List Char × Option CfsRangeExpr) := do
  let re : CfsRangeExpr := ⟨0, 0, 0⟩
  if (← isStar mem src) then return (mem, some ⟨min, max, 1⟩)
  let r ← cfsStr2numCheck mem src.lsStr src.lsLen min max
  let re := { re with reLo := r.num.getD re.reLo }
  -- `<number>`
  if r.ok then return (r.mem, some { re with reHi := re.reLo, reStride := 1 })
  if !bracketed then return (r.mem, none)
  let (src, tok) := cfsGettok r.mem src '-'
  let some tok := tok | return (r.mem, none)
  let r ← cfsStr2numCheck r.mem tok.lsStr tok.lsLen min max
  let re := { re with reLo := r.num.getD re.reLo }
  if !r.ok then return (r.mem, none)
  let r ← cfsStr2numCheck r.mem src.lsStr src.lsLen min max
  let re := { re with reHi := r.num.getD re.reHi }
  -- `<number> '-' <number>`
  if r.ok then return (r.mem, some { re with reStride := 1 })
  let mem := r.mem
  let (src, tok) := cfsGettok mem src '/'
  match tok with
  | none => return (mem, some re)
  | some tok =>
    let r ← cfsStr2numCheck mem tok.lsStr tok.lsLen min max
    let re := { re with reHi := r.num.getD re.reHi }
    if !r.ok then return (r.mem, none)
    -- `<number> '-' <number> '/' <number>`; the expression is kept also when
    -- the stride does not parse
    let r ← cfsStr2numCheck r.mem src.lsStr src.lsLen min max
    return (r.mem, some { re with reStride := r.num.getD re.reStride })

/-- `cfs_expr_list_parse(str, len, min, max, elpp)`: a bracketed list of
range expressions separated by commas, or a single one without brackets. -/
def cfsExprListParse (mem : List Char) (str len min max : Nat) :
    Option (List Char × Option CfsExprList) :=
  if charAt mem str = '[' ∧ charAt mem (str + len - 1) = ']' then
    let src : Lstr := ⟨some (str + 1), len - 2⟩
    let body := fun mem tok (exprs : List CfsRangeExpr) =>
      (cfsRangeExprParse mem tok min max true).map fun (mem, re) => (mem, re.map (exprs ++ [·]))
    (cfsTokenLoop ',' body (src.lsLen + 1) mem src []).map fun (mem, exprs) =>
      (mem, exprs.map CfsExprList.mk)
  else
    (cfsRangeExprParse mem ⟨some str, len⟩ min max false).map fun (mem, re) =>
      (mem, re.map fun re => ⟨[re]⟩)

/-! ## Printing and matching -/

/-- `cfs_range_expr_print(buffer, count, expr, bracketed)`: inside a bracketed
list a range goes without brackets of its own. -/
def cfsRangeExprPrint (count : Int) (expr : CfsRangeExpr) (bracketed : Bool) : List Char :=
  let s : List Char := if bracketed then [] else ['[']
  let e : List Char := if bracketed then [] else [']']
  if expr.reLo = expr.reHi then scnprintf count (fmtNat 10 expr.reLo)
  else if expr.reStride = 1 then
    scnprintf count (s ++ fmtNat 10 expr.reLo ++ '-' :: fmtNat 10 expr.reHi ++ e)
  else
    scnprintf count
      (s ++ fmtNat 10 expr.reLo ++ '-' :: fmtNat 10 expr.reHi ++ '/' :: fmtNat 10 expr.reStride ++ e)

/-- The loop of `cfs_expr_list_print` over the expressions, after the text
`out`: a comma before every expression but the first. -/
def exprsPrint (count : Int) (bracketed : Bool) : Bool → List Char → List CfsRangeExpr → List Char
  | _, out, [] => out
  | first, out, expr :: exprs =>
    let out := if first then out else scnAppend count out [',']
    exprsPrint count bracketed false (out ++ cfsRangeExprPrint (count - out.length) expr bracketed)
      exprs

/-- `cfs_expr_list_print(buffer, count, expr_list)`: a list of several
expressions is bracketed. -/
def cfsExprListPrint (count : Int) (el : CfsExprList) : List Char :=
  if count ≤ 0 then []
  else
    let several := decide (el.elExprs.length > 1)
    let out := if several then scnprintf count ['['] else []
    let out := exprsPrint count several true out el.elExprs
    if several then scnAppend count out [']'] else out

/-- The loop of `cfs_expr_list_match`; `none` when it takes a remainder by a
zero stride. -/
def exprsMatch (value : Nat) : List CfsRangeExpr → Option Bool
  | [] => some false
  | expr :: exprs =>
    if expr.reLo ≤ value ∧ value ≤ expr.reHi then
      if expr.reStride = 0 then none
      else if (value - expr.reLo) % expr.reStride = 0 then some true
      else exprsMatch value exprs
    else exprsMatch value exprs

/-- `cfs_expr_list_match(value, expr_list)`. -/
def cfsExprListMatch (value : Nat) (el : CfsExprList) : Option Bool := exprsMatch value el.elExprs

/-- The parser keeps a range whose stride is zero: `[0-5/0]` with `min`
zero, and `[2-]`, where the upper bound and the stride are never read, with
`min` one. Matching `3` against the first divides by zero. -/
theorem cfs_expr_list_parse_zero_stride :
    (cfsExprListParse "[0-5/0]".toList 0 7 0 255).map (·.2) = some (some ⟨[⟨0, 5, 0⟩]⟩) ∧
      cfsExprListMatch 3 ⟨[⟨0, 5, 0⟩]⟩ = none ∧
      (cfsExprListParse "[2-]".toList 0 4 1 255).map (·.2) = some (some ⟨[⟨2, 0, 0⟩]⟩) := by
  decide

end Lustre.LibcfsString
