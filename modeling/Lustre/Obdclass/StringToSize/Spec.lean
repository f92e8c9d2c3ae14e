import Mathlib
import Lustre.Obdclass.StringToSize

/-! # What `string_to_size` stores

The inputs are a number followed by a unit text from the table of
`string_to_size` (`SizeSuffix`): nothing, `B`, `K` to `E` with or without `iB`,
or `kB` to `EB`. The number is a run of digits, or one with a `.` and more
digits, of which three count.

* The front of the function (unit table, unit loop, `.`) depends on the unit
  text only: the digits before it cannot start a unit (`unitSearch_append`,
  `sizeUnits_append`).
* With a fraction and a power-of-two unit, a value that is stored is
  `floor(v * multiplier)` for `v` cut to three decimals, and every value that
  does not fit is refused (`string_to_size_frac_binary`).
* With a power-of-ten unit the bit length test lets products of up to 65 bits
  through, and `*size` then holds the product modulo `2^64`; with a fraction
  the test refuses some values that fit (`string_to_size_wraps`).
-/

namespace Lustre.Lprocfs

open CFormat CArith

/-! ## Unit texts -/

/-- The unit texts of `string_to_size`: none, `B`, `K`..`E`, `KiB`..`EiB`
and `kB`..`EB`, the index counting from `K` (or `k`). -/
inductive SizeSuffix where
  | none
  | byte
  | bin (i : Fin 6)
  | binIB (i : Fin 6)
  | dec (i : Fin 6)
  deriving DecidableEq, Repr

/-- The letters of the units, from kilo to exa. -/
def binLetters : List Char := ['K', 'M', 'G', 'T', 'P', 'E']

def decLetters : List Char := ['k', 'M', 'G', 'T', 'P', 'E']

/-- The text of a unit. -/
def SizeSuffix.text : SizeSuffix → List Char
  | .none => []
  | .byte => ['B']
  | .bin i => [binLetters.getD i 'K']
  | .binIB i => [binLetters.getD i 'K', 'i', 'B']
  | .dec i => [decLetters.getD i 'k', 'B']

/-- The multiplier a unit stands for. -/
def SizeSuffix.mult : SizeSuffix → Nat
  | .none | .byte => 1
  | .bin i | .binIB i => 1024 ^ (i.val + 1)
  | .dec i => 1000 ^ (i.val + 1)

/-- Whether the multiplier is a power of two. -/
def SizeSuffix.Binary : SizeSuffix → Prop
  | .dec _ => False
  | _ => True

instance (s : SizeSuffix) : Decidable s.Binary :=
  match s with
  | .dec _ => isFalse id
  | .none | .byte | .bin _ | .binIB _ => isTrue trivial

theorem SizeSuffix.mult_lt (s : SizeSuffix) : s.mult < 2 ^ 64 := by
  cases s with
  | none | byte => decide
  | bin i | binIB i | dec i => revert i; decide

/-- A binary multiplier is a power of two. -/
theorem SizeSuffix.mult_two_pow {s : SizeSuffix} (hs : s.Binary) : ∃ j, s.mult = 2 ^ j := by
  cases s with
  | none | byte => exact ⟨0, rfl⟩
  | bin i | binIB i =>
    refine ⟨10 * (i.val + 1), ?_⟩
    simp only [SizeSuffix.mult, Nat.pow_mul]
  | dec i => exact absurd hs id

/-! ## The front of the function on a number and a unit

The characters of a number, digits and `.`, hold no letter of a unit, so
every search of the front of `string_to_size` steps over the number. -/

/-- The characters of a number. -/
def numberChars : List Char := '.' :: decimalDigits

section Front

variable {pre : List Char}

theorem not_mem_of_numberChars (hpre : ∀ c ∈ pre, c ∈ numberChars) {b : Char}
    (hb : b ∉ numberChars) : b ∉ pre :=
  fun h => hb (hpre b h)

/-- A head character outside a list, checked on the head itself: deciding
the statement as it stands may run over every character. -/
theorem forall_mem_of_all {o : Option Char} {l : List Char} (h : o.all (fun c => !l.contains c) = true) :
    ∀ c ∈ o, c ∉ l := by
  intro c hc hl
  rw [Option.mem_def] at hc
  rw [hc, Option.all_some, List.contains_iff_mem.2 hl, Bool.not_true] at h
  exact Bool.false_ne_true h

/-- Every unit of the tables starts with a letter. -/
theorem unitsStr_getD (u : StringUnits) (j : Nat) (hj : j ≤ 5) :
    ∃ b s, (unitsStr u).getD j [] = b :: s ∧ b ∉ numberChars := by
  have h : ∀ j, j < 6 → (((unitsStr u).getD j []).head?.all fun c => !numberChars.contains c) = true := by
    cases u <;> decide
  have hne : ∀ j, j < 6 → (unitsStr u).getD j [] ≠ [] := by cases u <;> decide
  obtain ⟨b, s, hbs⟩ := List.exists_cons_of_ne_nil (hne j (by omega))
  exact ⟨b, s, hbs, forall_mem_of_all (h j (by omega)) b (by rw [hbs]; rfl)⟩

/-- `strnstr` of a pattern starting with a letter steps over the number. -/
theorem strnstr_append_of_letter (hpre : ∀ c ∈ pre, c ∈ numberChars) {b : Char} {s t : List Char}
    (hb : b ∉ numberChars) :
    strnstr (pre ++ t) (b :: s) (pre.length + t.length) =
      (strnstr t (b :: s) t.length).map (· + pre.length) := by
  simp only [strnstr, List.cons_ne_nil, if_false]
  rw [strnstrFrom_append pre _ (not_mem_of_numberChars hpre hb), Nat.add_sub_cancel_left]

theorem unitSearch_append (hpre : ∀ c ∈ pre, c ∈ numberChars) (t : List Char) (u : StringUnits) :
    ∀ k, k ≤ 5 → unitSearch (pre ++ t) (pre.length + t.length) u k =
      (unitSearch t t.length u k).map fun r => (r.1, r.2 + pre.length)
  | 0, _ => by
    obtain ⟨b, s, hbs, hb⟩ := unitsStr_getD u 0 (by omega)
    simp only [unitSearch, hbs, strnstr_append_of_letter hpre hb, Option.map_map]
    rfl
  | k + 1, hk => by
    obtain ⟨b, s, hbs, hb⟩ := unitsStr_getD u (k + 1) hk
    have ih := unitSearch_append hpre t u k (by omega)
    simp only [unitSearch, hbs, strnstr_append_of_letter hpre hb]
    cases strnstr t (b :: s) t.length with
    | none => exact ih
    | some p => rfl

/-- The unit table seen from the unit text: a `B` at its front follows the
number, which is not an `i`. -/
def sizeUnitsAfter (t : List Char) : StringUnits :=
  match strstr t ['B'] with
  | some 0 => .units10
  | some (k + 1) => if charAt t k ≠ 'i' then .units10 else .units2
  | none => .units2

theorem charAt_append_right (pre t : List Char) (k : Nat) :
    charAt (pre ++ t) (pre.length + k) = charAt t k := by
  simp [charAt, List.getD_eq_getElem?_getD, List.getElem?_append_right]

theorem sizeUnits_append (hpre : ∀ c ∈ pre, c ∈ numberChars) (hne : pre ≠ []) (t : List Char) :
    sizeUnits (pre ++ t) = sizeUnitsAfter t := by
  have hB : 'B' ∉ numberChars := by decide
  have hstr : strstr (pre ++ t) ['B'] = (strstr t ['B']).map (· + pre.length) := by
    unfold strstr
    rw [List.length_append]
    exact strnstr_append_of_letter hpre hB
  unfold sizeUnits sizeUnitsAfter
  rw [hstr]
  rcases strstr t ['B'] with _ | _ | k
  · rfl
  · -- the `B` opens the unit text: `*(end - 1)` is the last character of the number
    have hlast : charAt (pre ++ t) (pre.length - 1) ∈ pre := by
      have hlt : pre.length - 1 < pre.length := by
        have := List.length_pos_iff.mpr hne
        omega
      simp only [charAt, List.getD_eq_getElem?_getD, List.getElem?_append_left hlt,
        List.getElem?_eq_getElem hlt, Option.getD_some]
      exact List.getElem_mem hlt
    have hi : charAt (pre ++ t) (pre.length - 1) ≠ 'i' := by
      intro h
      rw [h] at hlast
      exact absurd (hpre _ hlast) (by decide)
    simp only [Option.map_some, Nat.zero_add, if_pos hi]
  · simp only [Option.map_some]
    rw [show k + 1 + pre.length - 1 = pre.length + k by omega, charAt_append_right]

end Front

/-! ## Whole numbers -/

/-- Where the unit search on a unit text ends, and the multiplier it
fixes. -/
theorem unitSearch_text (s : SizeSuffix) :
    unitSearch s.text s.text.length (sizeUnitsAfter s.text) 5 =
      match s with
      | .none | .byte => none
      | .bin i | .binIB i | .dec i => some (i.val, 0) := by
  cases s with
  | none | byte => decide
  | bin i | binIB i | dec i => revert i; decide

/-- No unit text starts with a digit. -/
theorem text_head_not_digit (s : SizeSuffix) : ∀ c ∈ s.text.head?, c ∉ decimalDigits := by
  apply forall_mem_of_all
  cases s with
  | none | byte => decide
  | bin i | binIB i | dec i => revert i; decide

theorem blkSize_text {s : SizeSuffix} {i : Fin 6} (hs : s = .bin i ∨ s = .binIB i ∨ s = .dec i) :
    blkSize (sizeUnitsAfter s.text) i.val = UInt64.ofNat s.mult := by
  rcases hs with rfl | rfl | rfl <;> (revert i; decide)

/-- The digits `strspn` accepts are those `kstrtoull` reads. -/
theorem isDigitOf_of_mem_decimalDigits {c : Char} (hc : c ∈ decimalDigits) : isDigitOf 10 c = true := by
  simp only [decimalDigits, List.mem_cons, List.not_mem_nil, or_false] at hc
  rcases hc with rfl | rfl | rfl | rfl | rfl | rfl | rfl | rfl | rfl | rfl <;> decide

/-- `numbers_only:` on a run of digits whose value fits a `u64`. -/
theorem numbersOnly_digits (size : UInt64) {ds : List Char} (rest : List Char) (blk : UInt64)
    (count : Nat) (hne : ds ≠ []) (hds : ∀ c ∈ ds, c ∈ decimalDigits)
    (hlt : digitsValue 10 0 ds < 2 ^ 64) (hlen : ds.length < 22) :
    numbersOnly size (ds ++ rest) ds.length blk count =
      let w := UInt64.ofNat (digitsValue 10 0 ds)
      if w ≠ 0 ∧ fls64 w + fls64 blk - 1 > 64 then (size, -eoverflow) else (size + w * blk, count) := by
  have hdig : ∀ c ∈ ds, isDigitOf 10 c = true := fun c hc => isDigitOf_of_mem_decimalDigits (hds c hc)
  have hbuf : scnprintf 22 ((ds ++ rest).take ds.length) = ds := by
    rw [List.take_left]
    exact scnprintf_of_lt (by omega)
  simp only [numbersOnly, hbuf, kstrtoull_of_digits hne hdig hlt]

/-! ## Numbers with a fraction -/

/-- The fraction cut to three digits, in thousandths. -/
def thousandths (fs : List Char) : Nat := digitsValue 10 0 ((fs ++ ['0', '0', '0']).take 3)

theorem thousandths_lt {fs : List Char} (hfs : ∀ c ∈ fs, c ∈ decimalDigits) : thousandths fs < 1000 := by
  have hdig : ∀ c ∈ (fs ++ ['0', '0', '0']).take 3, isDigitOf 10 c = true := by
    intro c hc
    rcases List.mem_append.mp (List.mem_of_mem_take hc) with h | h
    · exact isDigitOf_of_mem_decimalDigits (hfs c h)
    · simp only [List.mem_cons, List.not_mem_nil, or_false, or_self] at h
      rw [h]
      decide
  have hlen : ((fs ++ ['0', '0', '0']).take 3).length = 3 := by simp
  have := digitsValue_lt _ 0 hdig
  rw [hlen] at this
  unfold thousandths
  simpa using this

/-- `rem` holds the first three digits after the `.`, padded with zeros. -/
theorem fracDigits_append (ds : List Char) {fs t : List Char} (hfs : ∀ c ∈ fs, c ∈ decimalDigits)
    (ht : ∀ c ∈ t.head?, c ∉ decimalDigits) :
    fracDigits (ds ++ '.' :: fs ++ t) ds.length = (fs ++ ['0', '0', '0']).take 3 := by
  have hrest : (ds ++ '.' :: fs ++ t).drop (ds.length + 1) = fs ++ t := by simp
  have hspn : strspn (fs ++ t) decimalDigits = fs.length := strspn_append hfs ht
  simp only [fracDigits, hrest, hspn]
  rw [List.take_append_of_le_length (Nat.min_le_right _ _)]
  -- three digits or more are cut; fewer are padded
  rcases fs with _ | ⟨a, _ | ⟨b, _ | ⟨c, fs⟩⟩⟩ <;> simp

/-- A number with a fraction and a unit: the fraction goes through the bit
length test before `numbers_only`. -/
theorem stringToSize_frac_eq (size : UInt64) {ds fs : List Char} (s : SizeSuffix) {i : Fin 6}
    (hs : s = .bin i ∨ s = .binIB i ∨ s = .dec i) (hds : ∀ c ∈ ds, c ∈ decimalDigits)
    (hfs : ∀ c ∈ fs, c ∈ decimalDigits) (hlen : (ds ++ '.' :: fs ++ s.text).length < 22) :
    stringToSize size (ds ++ '.' :: fs ++ s.text) (ds ++ '.' :: fs ++ s.text).length =
      let t := UInt64.ofNat (thousandths fs)
      let blk := UInt64.ofNat s.mult
      if fls64 t + fls64 blk - 1 > 64 then (0, -eoverflow)
      else numbersOnly (t * blk / 1000) (ds ++ '.' :: fs ++ s.text) ds.length blk
        (ds ++ '.' :: fs ++ s.text).length := by
  have hpre : ∀ c ∈ ds ++ '.' :: fs, c ∈ numberChars := by
    intro c hc
    rcases List.mem_append.mp hc with h | h
    · exact List.mem_cons_of_mem '.' (hds c h)
    · rcases List.mem_cons.mp h with rfl | h
      · exact List.mem_cons_self
      · exact List.mem_cons_of_mem '.' (hfs c h)
  have hnum : ds ++ '.' :: fs ≠ [] := by simp
  have hsearch := unitSearch_append hpre s.text (sizeUnitsAfter s.text) 5 (by omega)
  rw [unitSearch_text, ← List.length_append] at hsearch
  have hdotpos : strnchr (ds ++ '.' :: fs ++ s.text) (ds ++ '.' :: fs ++ s.text).length '.' =
      some ds.length := by
    have hdot : '.' ∉ ds := fun h => absurd (hds '.' h) (by decide)
    rw [List.append_assoc, strnchr_append ds _ hdot,
      show (ds ++ ('.' :: fs ++ s.text)).length - ds.length = (fs ++ s.text).length + 1 by simp]
    simp [strnchr]
  have hfrac : kstrtoull (fracDigits (ds ++ '.' :: fs ++ s.text) ds.length) 10 = .ok (thousandths fs) := by
    rw [fracDigits_append ds hfs (text_head_not_digit s)]
    apply kstrtoull_of_digits
    · simp
    · intro c hc
      rcases List.mem_append.mp (List.mem_of_mem_take hc) with h | h
      · exact isDigitOf_of_mem_decimalDigits (hfs c h)
      · simp only [List.mem_cons, List.not_mem_nil, or_false, or_self] at h
        rw [h]
        decide
    · exact Nat.lt_trans (thousandths_lt hfs) (by decide)
  unfold stringToSize
  rw [if_neg (by omega), sizeUnits_append hpre hnum]
  dsimp only
  rw [hsearch]
  rcases hs with rfl | rfl | rfl <;>
  · simp only [Option.map_some, Nat.zero_add]
    rw [hdotpos]
    dsimp only
    rw [hfrac]
    dsimp only
    rw [blkSize_text (by simp)]

/-- With a fraction and a power-of-two unit no wrapped value is stored: the
call either fails with `-EOVERFLOW` or stores `floor(v * multiplier)`, for `v`
the number cut to three decimals, which then fits; and every value that does
not fit is refused. -/
theorem string_to_size_frac_binary (size : UInt64) {ds fs : List Char} (s : SizeSuffix) {i : Fin 6}
    (hs : s = .bin i ∨ s = .binIB i) (hne : ds ≠ []) (hds : ∀ c ∈ ds, c ∈ decimalDigits)
    (hfs : ∀ c ∈ fs, c ∈ decimalDigits) (hlt : digitsValue 10 0 ds < 2 ^ 64)
    (hlen : (ds ++ '.' :: fs ++ s.text).length < 22) :
    let r := stringToSize size (ds ++ '.' :: fs ++ s.text) (ds ++ '.' :: fs ++ s.text).length
    let exact := (1000 * digitsValue 10 0 ds + thousandths fs) * s.mult / 1000
    (r.2 = -eoverflow ∨ (r = (UInt64.ofNat exact, ((ds ++ '.' :: fs ++ s.text).length : Int)) ∧ exact < 2 ^ 64)) ∧
    (2 ^ 64 ≤ exact → r.2 = -eoverflow) := by
  intro r exact
  have hr : r = _ := stringToSize_frac_eq size s (i := i) (by rcases hs with h | h <;> simp [h]) hds hfs hlen
  set v := digitsValue 10 0 ds with hv
  set t := thousandths fs with ht
  obtain ⟨j, hj⟩ := s.mult_two_pow (by rcases hs with rfl | rfl <;> trivial)
  have htlt : t < 1000 := thousandths_lt hfs
  have hw : (UInt64.ofNat v).toNat = v := UInt64.toNat_ofNat_of_lt' hlt
  have htn : (UInt64.ofNat t).toNat = t := UInt64.toNat_ofNat_of_lt' (Nat.lt_trans htlt (by decide))
  have hm : (UInt64.ofNat s.mult).toNat = 2 ^ j := by rw [UInt64.toNat_ofNat_of_lt' s.mult_lt, hj]
  have hj64 : j ≤ 64 := by
    have := s.mult_lt
    rw [hj] at this
    exact Nat.le_of_lt ((Nat.pow_lt_pow_iff_right (by omega)).mp this)
  -- `floor((v + t / 1000) * 2^j)` splits into the whole part and the fraction's share
  have hexact : exact = t * 2 ^ j / 1000 + v * 2 ^ j := by
    show (1000 * v + t) * s.mult / 1000 = _
    rw [hj, Nat.add_mul, Nat.mul_assoc, Nat.add_comm, Nat.add_mul_div_left _ _ (by omega)]
  by_cases hftest : fls64 (UInt64.ofNat t) + fls64 (UInt64.ofNat s.mult) - 1 > 64
  · rw [if_pos hftest] at hr
    exact ⟨.inl (by rw [hr]), fun _ => by rw [hr]⟩
  rw [if_neg hftest, List.append_assoc,
    numbersOnly_digits _ _ _ _ hne hds hlt (by simp at hlen; omega)] at hr
  -- the fraction's product passes the test, so it fits and the division is exact
  have htm : t * 2 ^ j < 2 ^ 64 := by
    have := mul_lt_of_fls_two_pow (a := UInt64.ofNat t) hm (by omega)
    rwa [htn, hm] at this
  have hf : (UInt64.ofNat t * UInt64.ofNat s.mult / 1000).toNat = t * 2 ^ j / 1000 := by
    rw [UInt64.toNat_div, UInt64.toNat_mul, htn, hm, Nat.mod_eq_of_lt htm]
    rfl
  have hfm : t * 2 ^ j / 1000 < 2 ^ j :=
    Nat.div_lt_of_lt_mul (Nat.mul_lt_mul_of_pos_right htlt (Nat.two_pow_pos j))
  have hcount : ((ds ++ '.' :: fs ++ s.text).length : Int) ≠ -eoverflow := by
    have : (0 : Int) ≤ (ds ++ '.' :: fs ++ s.text).length := Int.natCast_nonneg _
    unfold eoverflow
    omega
  by_cases hwtest : UInt64.ofNat v ≠ 0 ∧ fls64 (UInt64.ofNat v) + fls64 (UInt64.ofNat s.mult) - 1 > 64
  · rw [if_pos hwtest] at hr
    exact ⟨.inl (by rw [hr]), fun _ => by rw [hr]⟩
  rw [if_neg hwtest, ← List.append_assoc] at hr
  -- the whole part passes too, so it fits, and the carry from the fraction does not wrap
  have hvm : v * 2 ^ j < 2 ^ 64 := by
    by_cases hv0 : UInt64.ofNat v = 0
    · have : v = 0 := by rw [← hw, hv0]; rfl
      rw [this, Nat.zero_mul]
      exact Nat.two_pow_pos 64
    · have hpass : ¬ fls64 (UInt64.ofNat v) + fls64 (UInt64.ofNat s.mult) - 1 > 64 :=
        fun h => hwtest ⟨hv0, h⟩
      have := mul_lt_of_fls_two_pow (a := UInt64.ofNat v) hm (by omega)
      rwa [hw, hm] at this
  have hsum : t * 2 ^ j / 1000 + v * 2 ^ j < 2 ^ 64 := add_mul_two_pow_lt hj64 hvm hfm
  have hval : UInt64.ofNat t * UInt64.ofNat s.mult / 1000 + UInt64.ofNat v * UInt64.ofNat s.mult =
      UInt64.ofNat exact := by
    apply UInt64.toNat_inj.mp
    rw [UInt64.toNat_add, UInt64.toNat_mul, hf, hw, hm, UInt64.toNat_ofNat', hexact,
      Nat.mod_eq_of_lt hvm]
  refine ⟨.inr ⟨by rw [hr, hval], by omega⟩, fun hbig => absurd hbig (by omega)⟩

/-- `1.5K` stores 1536. -/
theorem string_to_size_frac_kib :
    ((stringToSize 0 ['1', '.', '5', 'K'] 4).2 = -eoverflow ∨
        (stringToSize 0 ['1', '.', '5', 'K'] 4 = (UInt64.ofNat 1536, 4) ∧ 1536 < 2 ^ 64)) ∧
      (2 ^ 64 ≤ 1536 → (stringToSize 0 ['1', '.', '5', 'K'] 4).2 = -eoverflow) :=
  @string_to_size_frac_binary 0 ['1'] ['5'] (.bin 0) 0 (.inl rfl) (by simp) (by simp [decimalDigits])
    (by simp [decimalDigits]) (by simp [digitsValue, digitVal]) (by decide)

/-! ## Where the claim of exactness fails -/

/-- With a power-of-ten unit a product of 65 bits passes the bit length test:
`31EB` returns `count` and stores `31 * 10^18` modulo `2^64`. The fraction's
product can wrap the same way, so `1.031EB`, which fits, is stored wrong. With
a power-of-two unit the fraction is refused for a value that fits (`1.5EiB`),
and a fraction without a unit is refused as a whole (`1.5`). -/
theorem string_to_size_wraps :
    (stringToSize 0 ['3', '1', 'E', 'B'] 4 = (UInt64.ofNat (31 * 1000 ^ 6), 4) ∧
      2 ^ 64 ≤ 31 * 1000 ^ 6) ∧
    (stringToSize 0 ['1', '.', '0', '3', '1', 'E', 'B'] 7 = (UInt64.ofNat 1012553255926290448, 7) ∧
      1031 * 1000 ^ 6 / 1000 < 2 ^ 64 ∧ 1012553255926290448 ≠ 1031 * 1000 ^ 6 / 1000) ∧
    (stringToSize 0 ['1', '.', '5', 'E', 'i', 'B'] 6 = (0, -eoverflow) ∧
      1500 * 1024 ^ 6 / 1000 < 2 ^ 64) ∧
    stringToSize 0 ['1', '.', '5'] 3 = (0, -einval) := by
  refine ⟨⟨?_, ?_⟩, ⟨?_, ?_, ?_⟩, ⟨?_, ?_⟩, ?_⟩ <;> decide

end Lustre.Lprocfs
