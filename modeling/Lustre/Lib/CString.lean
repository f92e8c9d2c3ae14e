import Mathlib

/-! # Searching C strings: `strnstr`, `strstr`, `strnchr` and `strspn`

The kernel's searches over a string, modelled as the list of its characters
before the NUL. Each returns the offset of what it finds.

* `strnstr(s1, s2, len)` compares `s2` at every offset while at least
  `strlen(s2)` of the `len` characters remain; past the end of `s1` the
  characters read as the NUL, which the searched pattern does not hold.
* `strstr(s1, s2)` is `strnstr` over the whole string.
* `strnchr(s, count, c)` looks at `count` characters at most and stops at the
  NUL, for a `c` other than the NUL.
* `strspn(s, accept)` counts the leading characters that `accept` holds.

The laws say how a search steps over a prefix that cannot start a match
(`strnstrFrom_append`, `strnchr_append`) and where a search with too short a
range stops (`strnstrFrom_of_lt`).

The kernel's `<linux/ctype.h>` classes a byte by its table, which holds the
Latin-1 letters beside the ASCII ones; `strncasecmp` compares through
`tolower` and stops at the NUL. Nothing here refers to a particular
program.
-/

namespace CFormat

variable {α : Type} [DecidableEq α]

/-- The loop of `strnstr` for a nonempty `s2`: `while (len >= l2) { len--;
if (!memcmp(s1, s2, l2)) return s1; s1++; }`. -/
def strnstrFrom (s2 : List α) : List α → Nat → Option Nat
  | _, 0 => none
  | s1, len + 1 =>
    if s2.length ≤ len + 1 then
      if s2.isPrefixOf s1 then some 0 else (strnstrFrom s2 s1.tail len).map (· + 1)
    else none

/-- `strnstr(s1, s2, len)`: an empty `s2` is found at once. -/
def strnstr (s1 s2 : List α) (len : Nat) : Option Nat :=
  if s2 = [] then some 0 else strnstrFrom s2 s1 len

/-- `strstr(s1, s2)`. -/
def strstr (s1 s2 : List α) : Option Nat := strnstr s1 s2 s1.length

/-- `strnchr(s, count, c)`. -/
def strnchr : List α → Nat → α → Option Nat
  | _, 0, _ => none
  | [], _ + 1, _ => none
  | x :: s, count + 1, c => if x = c then some 0 else (strnchr s count c).map (· + 1)

/-- `strspn(s, accept)`. -/
def strspn (s accept : List α) : Nat := (s.takeWhile (· ∈ accept)).length

/-- With fewer characters left than the pattern has, nothing is found. -/
theorem strnstrFrom_of_lt {s2 : List α} : ∀ {s1 : List α} {len : Nat}, len < s2.length →
    strnstrFrom s2 s1 len = none
  | _, 0, _ => rfl
  | _, _ + 1, h => by rw [strnstrFrom, if_neg (by omega)]

/-- A prefix that does not hold the first character of the pattern is
stepped over: the search goes on after it, on what is left of the range. -/
theorem strnstrFrom_append {b : α} {s2 rest : List α} :
    ∀ (ds : List α) (len : Nat), b ∉ ds →
      strnstrFrom (b :: s2) (ds ++ rest) len =
        (strnstrFrom (b :: s2) rest (len - ds.length)).map (· + ds.length)
  | [], len, _ => by simp
  | d :: ds, 0, _ => by simp [strnstrFrom]
  | d :: ds, len + 1, hb => by
    have hbd : b ≠ d := fun h => hb (h ▸ List.mem_cons_self)
    have hbds : b ∉ ds := fun h => hb (List.mem_cons_of_mem d h)
    have hlen : len + 1 - (d :: ds).length = len - ds.length := by simp
    rw [hlen]
    by_cases hroom : (b :: s2).length ≤ len + 1
    · have hpre : (b :: s2).isPrefixOf (d :: ds ++ rest) = false := by
        simp [List.isPrefixOf, hbd]
      rw [strnstrFrom, if_pos hroom, hpre, if_neg Bool.false_ne_true, List.cons_append,
        List.tail_cons, strnstrFrom_append ds len hbds, Option.map_map]
      rfl
    · rw [strnstrFrom, if_neg hroom, strnstrFrom_of_lt (by simp at hroom ⊢; omega)]
      rfl

/-- The same for `strnchr`: a prefix without `c` is stepped over. -/
theorem strnchr_append {c : α} {rest : List α} :
    ∀ (ds : List α) (count : Nat), c ∉ ds →
      strnchr (ds ++ rest) count c = (strnchr rest (count - ds.length) c).map (· + ds.length)
  | [], count, _ => by simp
  | d :: ds, 0, _ => by simp [strnchr]
  | d :: ds, count + 1, hc => by
    have hdc : d ≠ c := fun h => hc (h ▸ List.mem_cons_self)
    have hcds : c ∉ ds := fun h => hc (List.mem_cons_of_mem d h)
    have hcount : count + 1 - (d :: ds).length = count - ds.length := by simp
    rw [hcount, List.cons_append, strnchr, if_neg hdc, strnchr_append ds count hcds, Option.map_map]
    rfl

/-- `strspn` over a run of accepted characters followed by one that is not. -/
theorem strspn_append {accept ds rest : List α} (hds : ∀ c ∈ ds, c ∈ accept)
    (hrest : ∀ c ∈ rest.head?, c ∉ accept) : strspn (ds ++ rest) accept = ds.length := by
  unfold strspn
  rw [List.takeWhile_append_of_pos (by simpa using hds)]
  cases rest with
  | nil => simp
  | cons r rest =>
    have hr : r ∉ accept := hrest r rfl
    simp [hr]

/-! ## Character classes and `strncasecmp` -/

/-- `isdigit(c)`. -/
def isDigit (c : UInt8) : Bool := 48 ≤ c && c ≤ 57

/-- `isupper(c)`: `A`-`Z` and the Latin-1 capitals, without `×`. -/
def isUpper (c : UInt8) : Bool := (65 ≤ c && c ≤ 90) || (192 ≤ c && c ≤ 222 && c != 215)

/-- `islower(c)`: `a`-`z` and the Latin-1 small letters, without `÷`. -/
def isLower (c : UInt8) : Bool := (97 ≤ c && c ≤ 122) || (223 ≤ c && c != 247)

/-- `tolower(c)`. -/
def toLower (c : UInt8) : UInt8 := if isUpper c then c + 32 else c

/-- `strncasecmp(s1, s2, len) == 0`: the strings agree up to case on their
first `len` characters, or up to a NUL that both have at the same place. -/
def strncasecmpEq : List UInt8 → List UInt8 → Nat → Bool
  | _, _, 0 => true
  | s1, s2, len + 1 =>
    let c1 := s1.headD 0
    let c2 := s2.headD 0
    if c1 = 0 || c2 = 0 then c1 == c2
    else if toLower c1 = toLower c2 then strncasecmpEq s1.tail s2.tail len
    else false

end CFormat
