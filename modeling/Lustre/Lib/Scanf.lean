import Mathlib

/-! # Unsigned integers in C strings: `printf` and the kernel's `sscanf`

A C string is modelled as the list of its characters before the terminating
NUL; the characters that matter here are ASCII.

* `fmtNat` — what `printf` writes for `%u` (base 10) and `%x` (base 16).
* `vsscanf` — the kernel's `vsscanf` on formats made of literal characters
  and the directives `%u`, `%x` and `%n`: integer conversions skip blanks,
  need a digit of the base, take the digits with the kernel's
  `_parse_integer_limit` (a `u64` accumulator; `%x` first skips a `0x`
  prefix) and store the value in an `unsigned int`; `%n` stores the number
  of characters consumed, also at the end of the input; the scan stops at the
  first literal that does not match or conversion that fails.
* `scnprintf` — the text a bounded print leaves in its buffer.
* `strim` and `kstrtouint` — the kernel's in-place trim of a string buffer
  (it writes a NUL) and its strict conversion, which picks the radix for
  base 0, needs a digit, allows one trailing newline and refuses overflow.

The laws are the round trip of a printed number through a conversion
(`scanUnsigned_fmtNat`) and the step rules `vsscanf` is taken apart with.
Nothing here refers to a particular program.
-/

namespace CFormat

/-! ## Digits -/

/-- The character of digit `d < 16`, lower case as `%x` prints it. -/
def digitChar (d : Nat) : Char :=
  if d < 10 then Char.ofNat (48 + d) else Char.ofNat (87 + d)

/-- The value of a digit character as the kernel's parser reads it: `0`-`9`,
then `a`-`f` in either case (`c | 0x20` folds the case). -/
def digitVal (c : Char) : Option Nat :=
  if 48 ≤ c.toNat ∧ c.toNat ≤ 57 then some (c.toNat - 48)
  else if 97 ≤ (c.toNat ||| 0x20) ∧ (c.toNat ||| 0x20) ≤ 102 then some ((c.toNat ||| 0x20) - 87)
  else none

/-- Whether `c` is a digit of `base`. -/
def isDigitOf (base : Nat) (c : Char) : Bool :=
  match digitVal c with
  | some v => decide (v < base)
  | none => false

theorem digitVal_digitChar : ∀ d, d < 16 → digitVal (digitChar d) = some d := by
  decide

/-! ## `printf` -/

/-- The digits of `n` in `base`, most significant first, with no leading
zeros: `%u` for base 10, `%x` for base 16. -/
def fmtNat (base : Nat) (n : Nat) : List Char :=
  if base ≤ n ∧ 2 ≤ base then fmtNat base (n / base) ++ [digitChar (n % base)]
  else [digitChar n]
termination_by n
decreasing_by exact Nat.div_lt_self (by omega) (by omega)

theorem fmtNat_of_lt {base n : Nat} (h : n < base) : fmtNat base n = [digitChar n] := by
  rw [fmtNat, if_neg (by omega)]

theorem fmtNat_of_le {base n : Nat} (hb : 2 ≤ base) (h : base ≤ n) :
    fmtNat base n = fmtNat base (n / base) ++ [digitChar (n % base)] := by
  rw [fmtNat, if_pos ⟨h, hb⟩]

theorem fmtNat_ne_nil (base n : Nat) : fmtNat base n ≠ [] := by
  rw [fmtNat]
  split <;> simp

/-- Every character `%u` or `%x` prints is a digit of the base. -/
theorem digitChar_of_mem_fmtNat {base : Nat} (hb : 2 ≤ base) (hb' : base ≤ 16) :
    ∀ n, ∀ c ∈ fmtNat base n, ∃ d < base, c = digitChar d := by
  intro n
  induction n using Nat.strongRecOn with
  | ind n ih =>
    intro c hc
    by_cases h : base ≤ n
    · rw [fmtNat_of_le hb h, List.mem_append, List.mem_singleton] at hc
      rcases hc with hc | rfl
      · exact ih (n / base) (Nat.div_lt_self (by omega) (by omega)) c hc
      · exact ⟨n % base, Nat.mod_lt _ (by omega), rfl⟩
    · rw [fmtNat_of_lt (by omega), List.mem_singleton] at hc
      exact ⟨n, by omega, hc⟩

/-- `printf` writes at most `k + 1` digits for a number below `base ^ (k + 1)`. -/
theorem length_fmtNat_le {base : Nat} (hb : 2 ≤ base) :
    ∀ k n, n < base ^ (k + 1) → (fmtNat base n).length ≤ k + 1
  | 0, n, h => by
    rw [fmtNat_of_lt (by simpa using h)]
    simp
  | k + 1, n, h => by
    by_cases hn : base ≤ n
    · have hdiv : n / base < base ^ (k + 1) := by
        rw [Nat.div_lt_iff_lt_mul (by omega), ← Nat.pow_succ]
        exact h
      rw [fmtNat_of_le hb hn, List.length_append, List.length_singleton]
      have := length_fmtNat_le hb k (n / base) hdiv
      omega
    · rw [fmtNat_of_lt (by omega)]
      simp

theorem isDigitOf_digitChar {base d : Nat} (hb : base ≤ 16) (hd : d < base) :
    isDigitOf base (digitChar d) = true := by
  simp [isDigitOf, digitVal_digitChar d (by omega), hd]

/-! ## The kernel's integer parser -/

/-- One step of the `u64` accumulator of `_parse_integer_limit`. -/
def accStep (base acc v : Nat) : Nat := (acc * base + v) % 2 ^ 64

/-- `_parse_integer_limit(s, base, &res, INT_MAX)`: the value of the digits
of `base` at the front of `s`, and how many there are. -/
def parseInteger (base : Nat) (acc : Nat) : List Char → Nat × Nat
  | [] => (acc, 0)
  | c :: s =>
    match digitVal c with
    | some v =>
      if v < base then
        let r := parseInteger base (accStep base acc v) s
        (r.1, r.2 + 1)
      else (acc, 0)
    | none => (acc, 0)

/-- The accumulator after a run of digits. -/
def accDigits (base acc : Nat) (ds : List Char) : Nat :=
  ds.foldl (fun a c => accStep base a ((digitVal c).getD 0)) acc

theorem accDigits_append (base acc : Nat) (xs ys : List Char) :
    accDigits base acc (xs ++ ys) = accDigits base (accDigits base acc xs) ys :=
  List.foldl_append

/-- A run of digits is read through, and parsing goes on after it. -/
theorem parseInteger_append (base : Nat) :
    ∀ (ds rest : List Char) (acc : Nat), (∀ c ∈ ds, isDigitOf base c = true) →
      parseInteger base acc (ds ++ rest) =
        ((parseInteger base (accDigits base acc ds) rest).1,
          (parseInteger base (accDigits base acc ds) rest).2 + ds.length)
  | [], rest, acc, _ => by simp [accDigits]
  | c :: ds, rest, acc, hds => by
    have hc := hds c (by simp)
    unfold isDigitOf at hc
    split at hc
    · next v hv =>
      have hlt : v < base := by simpa using hc
      have ih := parseInteger_append base ds rest (accStep base acc v)
        (fun x hx => hds x (by simp [hx]))
      simp only [List.cons_append, parseInteger, hv, if_pos hlt, ih, accDigits, List.foldl_cons,
        Option.getD_some, List.length_cons]
      rw [Nat.add_assoc]
    · cases hc

/-- Parsing stops at a character that is not a digit of the base. -/
theorem parseInteger_stop (base acc : Nat) (rest : List Char)
    (h : ∀ c ∈ rest.head?, isDigitOf base c = false) : parseInteger base acc rest = (acc, 0) := by
  cases rest with
  | nil => rfl
  | cons c s =>
    have hc := h c rfl
    unfold isDigitOf at hc
    unfold parseInteger
    split
    · next v hv =>
      rw [hv] at hc
      have hge : ¬ v < base := by simpa using hc
      rw [if_neg hge]
    · rfl

/-- The accumulator after the digits `printf` wrote for `n` holds `n`, as a
`u64`. -/
theorem accDigits_fmtNat {base : Nat} (hb : 2 ≤ base) (hb' : base ≤ 16) :
    ∀ n, accDigits base 0 (fmtNat base n) = n % 2 ^ 64 := by
  intro n
  induction n using Nat.strongRecOn with
  | ind n ih =>
    by_cases h : base ≤ n
    · have hlt : n / base < n := Nat.div_lt_self (by omega) (by omega)
      have hd : digitVal (digitChar (n % base)) = some (n % base) :=
        digitVal_digitChar _ (by have := Nat.mod_lt n (show base > 0 by omega); omega)
      rw [fmtNat_of_le hb h, accDigits_append, ih _ hlt]
      simp only [accDigits, List.foldl_cons, List.foldl_nil, hd, Option.getD_some, accStep]
      -- the digits before the last one hold `n / base`
      calc (n / base % 2 ^ 64 * base + n % base) % 2 ^ 64
          = (n / base * base + n % base) % 2 ^ 64 := by
            rw [Nat.add_mod, Nat.mul_mod, Nat.mod_mod, ← Nat.mul_mod, ← Nat.add_mod]
        _ = n % 2 ^ 64 := by rw [Nat.div_add_mod']
    · rw [fmtNat_of_lt (by omega), accDigits]
      simp [accStep, digitVal_digitChar n (by omega)]

/-! ## `vsscanf` -/

/-- The kernel's `isspace`: blank, the five control spaces, and `0xA0`. -/
def isSpace (c : Char) : Bool :=
  c = ' ' || c = '\t' || c = '\n' || c = '\x0b' || c = '\x0c' || c = '\r' || c = '\xa0'

/-- `_parse_integer_fixup_radix` for a given base: base 16 skips a leading
`0x` or `0X`. -/
def fixupRadix (base : Nat) : List Char → List Char
  | '0' :: c :: s => if base = 16 ∧ (c = 'x' ∨ c = 'X') then s else '0' :: c :: s
  | s => s

/-- An integer conversion of `vsscanf`: `none` when it fails; otherwise the
value, as the `unsigned int` it is stored in, and the characters consumed
(blanks, radix prefix and digits). -/
def scanUnsigned (base : Nat) (s : List Char) : Option (Nat × Nat) :=
  match s with
  | [] => none
  | _ =>
    let s1 := s.dropWhile isSpace
    match s1.head? with
    | some c =>
      if isDigitOf base c then
        let s2 := fixupRadix base s1
        let r := parseInteger base 0 s2
        some (r.1 % 2 ^ 32, (s.length - s1.length) + (s1.length - s2.length) + r.2)
      else none
    | none => none

/-- The directives of the formats modelled: a literal character, an integer
conversion (`%u` is base 10, `%x` base 16), and `%n`. -/
inductive ScanDirective where
  | lit (c : Char)
  | conv (base : Nat)
  | count
  deriving DecidableEq, Repr

/-- `vsscanf` from position `pos` of the input: the number of conversions
assigned and the values stored, in directive order (`%n` stores the position).
The variables of directives the scan did not reach are not written. -/
def vsscanf : List ScanDirective → List Char → Nat → Nat × List Nat
  | [], _, _ => (0, [])
  | .lit c :: fmt, s, pos =>
    match s with
    | c' :: s' => if c' = c then vsscanf fmt s' (pos + 1) else (0, [])
    | [] => (0, [])
  | .count :: fmt, s, pos =>
    let r := vsscanf fmt s pos
    (r.1, pos :: r.2)
  | .conv base :: fmt, s, pos =>
    match scanUnsigned base s with
    | some (v, k) =>
      let r := vsscanf fmt (s.drop k) (pos + k)
      (r.1 + 1, v :: r.2)
    | none => (0, [])

@[simp] theorem vsscanf_nil (s : List Char) (pos : Nat) : vsscanf [] s pos = (0, []) := rfl

@[simp] theorem vsscanf_lit_self (c : Char) (fmt : List ScanDirective) (s : List Char) (pos : Nat) :
    vsscanf (.lit c :: fmt) (c :: s) pos = vsscanf fmt s (pos + 1) := by
  simp [vsscanf]

theorem vsscanf_lit_ne {c c' : Char} (h : c' ≠ c) (fmt : List ScanDirective) (s : List Char)
    (pos : Nat) : vsscanf (.lit c :: fmt) (c' :: s) pos = (0, []) := by
  simp [vsscanf, h]

@[simp] theorem vsscanf_count (fmt : List ScanDirective) (s : List Char) (pos : Nat) :
    vsscanf (.count :: fmt) s pos = ((vsscanf fmt s pos).1, pos :: (vsscanf fmt s pos).2) := rfl

theorem fixupRadix_ten (s : List Char) : fixupRadix 10 s = s := by
  unfold fixupRadix
  split
  · simp
  · rfl

theorem isSpace_digitChar : ∀ d, d < 16 → isSpace (digitChar d) = false := by
  decide

/-- `%u` reads back the number `printf` wrote with `%u`, up to the next
character that is not a digit. -/
theorem scanUnsigned_fmtNat (n : Nat) (rest : List Char)
    (hrest : ∀ c ∈ rest.head?, isDigitOf 10 c = false) :
    scanUnsigned 10 (fmtNat 10 n ++ rest) = some (n % 2 ^ 64 % 2 ^ 32, (fmtNat 10 n).length) := by
  obtain ⟨c, cs, hcs⟩ := List.exists_cons_of_ne_nil (fmtNat_ne_nil 10 n)
  have hdigits := digitChar_of_mem_fmtNat (show 2 ≤ 10 by decide) (by decide) n
  obtain ⟨d, hd, rfl⟩ := hdigits c (by simp [hcs])
  have hsp : isSpace (digitChar d) = false := isSpace_digitChar d (by omega)
  have hdrop : (fmtNat 10 n ++ rest).dropWhile isSpace = fmtNat 10 n ++ rest := by
    rw [hcs, List.cons_append, List.dropWhile_cons_of_neg (by simp [hsp])]
  have hhead : (fmtNat 10 n ++ rest).head? = some (digitChar d) := by
    rw [hcs]
    rfl
  have hparse := parseInteger_append 10 (fmtNat 10 n) rest 0
    (fun x hx => by
      obtain ⟨e, he, rfl⟩ := hdigits x hx
      exact isDigitOf_digitChar (by decide) he)
  rw [accDigits_fmtNat (by decide) (by decide), parseInteger_stop _ _ rest hrest] at hparse
  unfold scanUnsigned
  split
  · next hnil => simp [hcs] at hnil
  · simp only [hdrop, hhead, isDigitOf_digitChar (show 10 ≤ 16 by decide) hd, if_true,
      fixupRadix_ten, hparse]
    simp

/-- A `%u` conversion on a printed number, in the middle of a scan. -/
theorem vsscanf_conv_fmtNat (fmt : List ScanDirective) (n : Nat) (rest : List Char) (pos : Nat)
    (hrest : ∀ c ∈ rest.head?, isDigitOf 10 c = false) :
    vsscanf (.conv 10 :: fmt) (fmtNat 10 n ++ rest) pos =
      ((vsscanf fmt rest (pos + (fmtNat 10 n).length)).1 + 1,
        n % 2 ^ 64 % 2 ^ 32 :: (vsscanf fmt rest (pos + (fmtNat 10 n).length)).2) := by
  simp only [vsscanf, scanUnsigned_fmtNat n rest hrest, List.drop_left]

/-! ## String buffers

A buffer the kernel parses in place is the list of its characters, where the
routines below may write NULs; reading at or after the end reads the
terminating NUL. -/

/-- The character at offset `p` of a buffer. -/
def charAt (mem : List Char) (p : Nat) : Char := mem.getD p '\x00'

/-- The C string at offset `p`: its characters before the first NUL. -/
def cstr (mem : List Char) (p : Nat) : List Char := (mem.drop p).takeWhile (· ≠ '\x00')

/-- `strlen`. -/
def strlen (mem : List Char) (p : Nat) : Nat := (cstr mem p).length

/-- `skip_spaces`: the offset of the first character from `p` that is not a
blank. -/
def skipSpaces (mem : List Char) (p : Nat) : Nat := p + ((mem.drop p).takeWhile isSpace).length

/-- `strim(s)`: a NUL is written after the last character of the string at `s`
that is not a blank, and the offset `skip_spaces` then finds is returned. -/
def strim (mem : List Char) (s : Nat) : List Char × Nat :=
  let str := cstr mem s
  if str.length = 0 then (mem, s)
  else
    let trailing := (str.reverse.takeWhile isSpace).length
    let mem := mem.set (s + str.length - trailing) '\x00'
    (mem, skipSpaces mem s)

/-! ## `kstrtouint` -/

/-- The errors of the kernel's `kstrto*` family: `-ERANGE` and `-EINVAL`. -/
inductive KstrtoxError where
  | range
  | inval
  deriving DecidableEq, Repr

/-- The base `_parse_integer_fixup_radix` picks for base 0: hexadecimal for
`0x` followed by a hex digit, octal for another leading `0`, else decimal. -/
def autoRadix : List Char → Nat
  | '0' :: c :: d :: _ => if (c = 'x' ∨ c = 'X') ∧ isDigitOf 16 d then 16 else 8
  | '0' :: _ => 8
  | _ => 10

/-- The overflow bit of `_parse_integer_limit`: tested only once the
accumulator has one of its top four bits set, and set when the next step
would pass `ULLONG_MAX`. -/
def parseOverflow (base acc : Nat) : List Char → Bool
  | [] => false
  | c :: s =>
    match digitVal c with
    | some v =>
      if v < base then
        (decide (2 ^ 60 ≤ acc) && decide ((2 ^ 64 - 1 - v) / base < acc)) ||
          parseOverflow base (accStep base acc v) s
      else false
    | none => false

/-- `_kstrtoull(s, base)`: the radix fixed up, at least one digit, then at most
a newline before the end of the string. -/
def kstrtoullBase (s : List Char) (base : Nat) : Except KstrtoxError Nat :=
  let base := if base = 0 then autoRadix s else base
  let s := fixupRadix base s
  let r := parseInteger base 0 s
  if parseOverflow base 0 s then .error .range
  else if r.2 = 0 then .error .inval
  else
    let s := match s.drop r.2 with
      | '\n' :: s => s
      | s => s
    if s = [] then .ok r.1 else .error .inval

/-- `kstrtoull(s, base)`: a leading `+` is skipped. -/
def kstrtoull (s : List Char) (base : Nat) : Except KstrtoxError Nat :=
  match s with
  | '+' :: s => kstrtoullBase s base
  | s => kstrtoullBase s base

/-- `kstrtouint(s, base, res)`: `kstrtoull`, refused with `-ERANGE` when the
value does not fit an `unsigned int`. -/
def kstrtouint (s : List Char) (base : Nat) : Except KstrtoxError Nat :=
  match kstrtoull s base with
  | .error e => .error e
  | .ok v => if v < 2 ^ 32 then .ok v else .error .range

/-! ## `scnprintf` -/

/-- `scnprintf(buf, size, ...)` of the text `s`: what it writes, at most
`size - 1` characters (the callers never pass a negative size). -/
def scnprintf (size : Int) (s : List Char) : List Char :=
  if size ≤ 0 then [] else s.take (size - 1).toNat

/-- `i += scnprintf(buf + i, size - i, ...)`: the text `s` written after the
text `out` already in a buffer of `size` characters. -/
def scnAppend (size : Int) (out s : List Char) : List Char := out ++ scnprintf (size - out.length) s

/-- In a buffer with room for it, `scnprintf` writes the whole text. -/
theorem scnprintf_of_lt {size : Int} {s : List Char} (h : (s.length : Int) < size) :
    scnprintf size s = s := by
  unfold scnprintf
  rw [if_neg (by omega)]
  exact List.take_of_length_le (by omega)

/-! ## The value of a run of digits

`kstrtoull` reads a run of digits exactly when its value fits a `u64`: the
accumulator then never wraps and the overflow bit stays clear. -/

/-- The value of the digits `ds` after the value `acc`, with no wrap. -/
def digitsValue (base acc : Nat) (ds : List Char) : Nat :=
  ds.foldl (fun a c => a * base + (digitVal c).getD 0) acc

theorem digitsValue_cons (base acc : Nat) (c : Char) (ds : List Char) :
    digitsValue base acc (c :: ds) = digitsValue base (acc * base + (digitVal c).getD 0) ds := rfl

/-- The value only grows along the digits. -/
theorem le_digitsValue {base : Nat} (hb : 1 ≤ base) : ∀ (ds : List Char) (acc : Nat),
    acc ≤ digitsValue base acc ds
  | [], _ => Nat.le_refl _
  | c :: ds, acc => by
    rw [digitsValue_cons]
    have h1 : acc ≤ acc * base := Nat.le_mul_of_pos_right acc hb
    exact Nat.le_trans (Nat.le_trans h1 (Nat.le_add_right _ _)) (le_digitsValue hb ds _)

/-- A run of `n` digits after `acc` stays below `(acc + 1) * base ^ n`. -/
theorem digitsValue_lt {base : Nat} : ∀ (ds : List Char) (acc : Nat),
    (∀ c ∈ ds, isDigitOf base c = true) → digitsValue base acc ds < (acc + 1) * base ^ ds.length
  | [], acc, _ => by simp [digitsValue]
  | c :: ds, acc, hds => by
    have hc := hds c List.mem_cons_self
    unfold isDigitOf at hc
    split at hc
    · next v hv =>
      have hvb : v < base := by simpa using hc
      have ih := digitsValue_lt ds (acc * base + v) (fun x hx => hds x (List.mem_cons_of_mem c hx))
      rw [digitsValue_cons, hv, Option.getD_some]
      -- one more digit: `acc * base + v + 1 ≤ (acc + 1) * base`
      calc digitsValue base (acc * base + v) ds < (acc * base + v + 1) * base ^ ds.length := ih
        _ ≤ (acc + 1) * base * base ^ ds.length :=
          Nat.mul_le_mul_right _ (by rw [Nat.add_mul, Nat.one_mul]; omega)
        _ = (acc + 1) * base ^ (c :: ds).length := by
          rw [List.length_cons, Nat.pow_succ, Nat.mul_assoc, Nat.mul_comm base]
    · cases hc

/-- Below the wrap, the accumulator holds the value and no overflow is
flagged. -/
theorem accDigits_parseOverflow_of_lt {base : Nat} (hb : 1 ≤ base) :
    ∀ (ds : List Char) (acc : Nat), (∀ c ∈ ds, isDigitOf base c = true) →
      digitsValue base acc ds < 2 ^ 64 →
      accDigits base acc ds = digitsValue base acc ds ∧ parseOverflow base acc ds = false
  | [], _, _, _ => ⟨rfl, rfl⟩
  | c :: ds, acc, hds, hlt => by
    have hc := hds c List.mem_cons_self
    unfold isDigitOf at hc
    split at hc
    · next v hv =>
      have hvb : v < base := by simpa using hc
      rw [digitsValue_cons, hv, Option.getD_some] at hlt ⊢
      -- the next accumulator is below the final value, so below the wrap
      have hstep : acc * base + v < 2 ^ 64 :=
        Nat.lt_of_le_of_lt (le_digitsValue hb ds _) hlt
      have hacc : accStep base acc v = acc * base + v := Nat.mod_eq_of_lt hstep
      have hfits : ¬ (2 ^ 64 - 1 - v) / base < acc := by
        rw [Nat.not_lt, Nat.le_div_iff_mul_le (by omega)]
        omega
      obtain ⟨ih1, ih2⟩ := accDigits_parseOverflow_of_lt hb ds (acc * base + v)
        (fun x hx => hds x (List.mem_cons_of_mem c hx)) hlt
      refine ⟨?_, ?_⟩
      · simp only [accDigits, List.foldl_cons, hv, Option.getD_some] at ih1 ⊢
        rw [hacc]
        exact ih1
      · simp only [parseOverflow, hv, if_pos hvb, hacc, ih2, hfits,
          decide_false, Bool.and_false, Bool.false_or]
    · cases hc

/-- `kstrtoull(s, 10)` of a nonempty run of decimal digits whose value fits a
`u64` gives that value. -/
theorem kstrtoull_of_digits {ds : List Char} (hne : ds ≠ [])
    (hds : ∀ c ∈ ds, isDigitOf 10 c = true) (hlt : digitsValue 10 0 ds < 2 ^ 64) :
    kstrtoull ds 10 = .ok (digitsValue 10 0 ds) := by
  obtain ⟨hacc, hover⟩ := accDigits_parseOverflow_of_lt (by decide) ds 0 hds hlt
  have hparse : parseInteger 10 0 ds = (digitsValue 10 0 ds, ds.length) := by
    have h := parseInteger_append 10 ds [] 0 hds
    rw [List.append_nil] at h
    rw [h, hacc]
    simp only [parseInteger, Nat.zero_add]
  have hbase : kstrtoullBase ds 10 = .ok (digitsValue 10 0 ds) := by
    have hlen : ds.length ≠ 0 := by simpa using hne
    simp only [kstrtoullBase, fixupRadix_ten, hparse, hover, hlen, List.drop_length,
      Nat.succ_ne_zero, if_false]
    rfl
  -- a digit is not the sign `kstrtoull` skips
  obtain ⟨c, cs, rfl⟩ := List.exists_cons_of_ne_nil hne
  have hc : c ≠ '+' := by
    intro h
    have := hds c List.mem_cons_self
    rw [h] at this
    exact absurd this (by decide)
  unfold kstrtoull
  split
  · next s heq => exact absurd (List.cons.inj heq).1 hc
  · exact hbase

end CFormat
