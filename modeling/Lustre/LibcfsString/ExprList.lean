import Mathlib
import Lustre.Basic
import Lustre.LibcfsString
import Lustre.Lib.CArith

/-! # The values of an expression list

`libcfs/libcfs/libcfs_string.c`. `cfs_expr_list_values(expr_list, max,
&values)` lists the values the range expressions of a list cover. A first
pass counts them and a second writes them out, each running
`for (i = re_lo; i <= re_hi; i++)` over every range and taking the `i` with
`(i - re_lo) % re_stride == 0`. It returns `0` for no values, `-EINVAL` when
there are more than `max`, and otherwise their number.

The loop counter `i` is an `int` compared with the `__u32` bound, so the
comparison is unsigned: a range up to `UINT_MAX` never ends (`rangeTurns`),
and a zero stride traps; both are `none`. The count is an `int`: it is kept
here as its 32 bits and read in two's complement (`narrowInt`), and the
second pass writes past the array when the first count wrapped.

The abstract side is `listValues`: for each range, the values from `re_lo`
to `re_hi` a whole number of strides above `re_lo`. Over ranges that run
(`CfsRangeExpr.Runs`) the two passes compute it (`exprsCount_eq`,
`exprsFill_eq`), and a value is listed
exactly when `cfs_expr_list_match` matches it (`exprsMatch_eq_true_iff`).
With `2^32` values the count wraps to zero and nothing is returned
(`cfs_expr_list_values_count_wraps`).
-/

namespace Lustre.LibcfsString

open CArith

/-! ## The model -/

/-- Whether the loops take `i`: `none` where the stride is zero and the
remainder traps. -/
def rangeHit (expr : CfsRangeExpr) (i : Nat) : Option Bool :=
  if expr.reStride = 0 then none else some (decide ((i - expr.reLo) % expr.reStride = 0))

/-- How many turns `for (i = re_lo; i <= re_hi; i++)` makes: `none` when
`re_hi` is `UINT_MAX`, which every `i` read unsigned is at most. -/
def rangeTurns (expr : CfsRangeExpr) : Option Nat :=
  if expr.reHi < 2 ^ 32 - 1 then some (expr.reHi + 1 - expr.reLo) else none

/-- The counting loop over one range, from `i` with `n` turns left: `count++`
for every value taken. -/
def valuesCount (expr : CfsRangeExpr) : Nat → Nat → Nat → Option Nat
  | 0, _, count => some count
  | n + 1, i, count => do
    let hit ← rangeHit expr i
    valuesCount expr n (i + 1) (if hit then (count + 1) % 2 ^ 32 else count)

/-- The filling loop over one range: `val[count++] = i` for every value
taken. -/
def valuesFill (expr : CfsRangeExpr) : Nat → Nat → List Nat → Option (List Nat)
  | 0, _, vals => some vals
  | n + 1, i, vals => do
    let hit ← rangeHit expr i
    valuesFill expr n (i + 1) (if hit then vals ++ [i] else vals)

/-- The first pass, over the expressions of the list. -/
def exprsCount : List CfsRangeExpr → Nat → Option Nat
  | [], count => some count
  | expr :: exprs, count => do
    let n ← rangeTurns expr
    let count ← valuesCount expr n expr.reLo count
    exprsCount exprs count

/-- The second pass. -/
def exprsFill : List CfsRangeExpr → List Nat → Option (List Nat)
  | [], vals => some vals
  | expr :: exprs, vals => do
    let n ← rangeTurns expr
    let vals ← valuesFill expr n expr.reLo vals
    exprsFill exprs vals

/-- `cfs_expr_list_values(expr_list, max, &values)`: what it returns, and
the values it wrote. -/
def cfsExprListValues (el : CfsExprList) (max : Int) : Option (Int × List Nat) := do
  let count ← exprsCount el.elExprs 0
  let count := narrowInt count
  -- empty expression list
  if count = 0 then return (0, [])
  if count > max then return (-einval, [])
  -- CFS_ALLOC_PTR_ARRAY of a negative count asks for more than there is
  if count < 0 then return (-enomem, [])
  let vals ← exprsFill el.elExprs []
  -- the second pass writes one entry per value, past the `count` allocated
  -- when the first count wrapped
  if (vals.length : Int) ≠ count then none
  return (count, vals)

/-! ## What the loops compute -/

/-- The values a range expression covers, in increasing order. -/
def rangeValues (expr : CfsRangeExpr) : List Nat :=
  (List.range' expr.reLo (expr.reHi + 1 - expr.reLo)).filter fun v => (v - expr.reLo) % expr.reStride = 0

/-- The values of a list: those of its expressions, one after the other. -/
def listValues (el : CfsExprList) : List Nat := el.elExprs.flatMap rangeValues

/-- A range the loops run through: a stride, and an upper bound below
`UINT_MAX`. -/
def CfsRangeExpr.Runs (expr : CfsRangeExpr) : Prop := 0 < expr.reStride ∧ expr.reHi < 2 ^ 32 - 1

instance (expr : CfsRangeExpr) : Decidable expr.Runs := inferInstanceAs (Decidable (_ ∧ _))

section Loops

variable {expr : CfsRangeExpr}

theorem rangeHit_of_pos (h : 0 < expr.reStride) (i : Nat) :
    rangeHit expr i = some (decide ((i - expr.reLo) % expr.reStride = 0)) := by
  rw [rangeHit, if_neg (by omega)]

theorem rangeTurns_of_runs (h : expr.Runs) : rangeTurns expr = some (expr.reHi + 1 - expr.reLo) := by
  rw [rangeTurns, if_pos h.2]

/-- The counting loop counts the values taken, mod `2^32`. -/
theorem valuesCount_eq (h : 0 < expr.reStride) :
    ∀ n i count, count < 2 ^ 32 → valuesCount expr n i count =
      some ((count + ((List.range' i n).filter fun v => (v - expr.reLo) % expr.reStride = 0).length) % 2 ^ 32)
  | 0, i, count, hc => by
    rw [valuesCount, List.range'_zero, List.filter_nil, List.length_nil, Nat.add_zero, Nat.mod_eq_of_lt hc]
  | n + 1, i, count, hc => by
    rw [valuesCount, rangeHit_of_pos h, Option.bind_eq_bind, Option.bind_some, List.range'_succ, List.filter_cons]
    by_cases hit : (i - expr.reLo) % expr.reStride = 0
    · rw [decide_eq_true hit, if_pos rfl, if_pos rfl,
        valuesCount_eq h n (i + 1) _ (Nat.mod_lt _ (by decide)), List.length_cons, Nat.mod_add_mod]
      congr 2
      omega
    · rw [decide_eq_false hit, if_neg Bool.false_ne_true, if_neg Bool.false_ne_true, valuesCount_eq h n (i + 1) _ hc]

/-- The filling loop appends the values taken. -/
theorem valuesFill_eq (h : 0 < expr.reStride) :
    ∀ n i vals, valuesFill expr n i vals =
      some (vals ++ (List.range' i n).filter fun v => (v - expr.reLo) % expr.reStride = 0)
  | 0, i, vals => by rw [valuesFill, List.range'_zero, List.filter_nil, List.append_nil]
  | n + 1, i, vals => by
    rw [valuesFill, rangeHit_of_pos h, Option.bind_eq_bind, Option.bind_some, List.range'_succ, List.filter_cons]
    by_cases hit : (i - expr.reLo) % expr.reStride = 0
    · rw [if_pos (decide_eq_true hit), if_pos (decide_eq_true hit), valuesFill_eq h n (i + 1),
        List.append_assoc, List.singleton_append]
    · rw [if_neg (by simp [hit]), if_neg (by simp [hit]), valuesFill_eq h n (i + 1)]

/-- The first pass counts the values of all the ranges, mod `2^32`. -/
theorem exprsCount_eq : ∀ {exprs : List CfsRangeExpr}, (∀ e ∈ exprs, e.Runs) → ∀ count, count < 2 ^ 32 →
    exprsCount exprs count = some ((count + (exprs.flatMap rangeValues).length) % 2 ^ 32)
  | [], _, count, hc => by rw [exprsCount, List.flatMap_nil, List.length_nil, Nat.add_zero, Nat.mod_eq_of_lt hc]
  | e :: exprs, hruns, count, hc => by
    have he := hruns e (List.mem_cons_self ..)
    simp only [exprsCount, rangeTurns_of_runs he, valuesCount_eq he.1 _ _ _ hc, Option.bind_eq_bind,
      Option.bind_some]
    rw [exprsCount_eq (fun e' h' => hruns e' (List.mem_cons_of_mem _ h')) _ (Nat.mod_lt _ (by decide)),
      List.flatMap_cons, List.length_append, rangeValues, Nat.mod_add_mod, Nat.add_assoc]

/-- The second pass writes the values of all the ranges. -/
theorem exprsFill_eq : ∀ {exprs : List CfsRangeExpr}, (∀ e ∈ exprs, e.Runs) → ∀ vals,
    exprsFill exprs vals = some (vals ++ exprs.flatMap rangeValues)
  | [], _, vals => by rw [exprsFill, List.flatMap_nil, List.append_nil]
  | e :: exprs, hruns, vals => by
    have he := hruns e (List.mem_cons_self ..)
    simp only [exprsFill, rangeTurns_of_runs he, valuesFill_eq he.1, Option.bind_eq_bind, Option.bind_some]
    rw [exprsFill_eq (fun e' h' => hruns e' (List.mem_cons_of_mem _ h')), List.flatMap_cons, rangeValues,
      List.append_assoc]

end Loops

/-! ## `cfs_expr_list_values` -/

section Values

variable {el : CfsExprList}

/-- Over ranges that run, `cfs_expr_list_values` is decided by the number
of values, read as an `int`. -/
theorem cfsExprListValues_eq (hruns : ∀ e ∈ el.elExprs, e.Runs) (max : Int) :
    cfsExprListValues el max =
      let count := narrowInt ((listValues el).length % 2 ^ 32)
      if count = 0 then some (0, [])
      else if count > max then some (-einval, [])
      else if count < 0 then some (-enomem, [])
      else if ((listValues el).length : Int) ≠ count then none
      else some (count, listValues el) := by
  simp only [cfsExprListValues, exprsCount_eq hruns 0 (by decide), exprsFill_eq hruns, Nat.zero_add,
    List.nil_append, Option.bind_eq_bind, Option.bind_some, listValues]
  split_ifs <;> simp only [*, if_true, if_false, ne_eq, not_false_eq_true, Option.pure_def, Option.bind_none]

end Values

/-! ## Listing and matching agree -/

section Match

variable {expr : CfsRangeExpr}

/-- The values of a range are those between its bounds a whole number of
strides above the lower one. -/
theorem mem_rangeValues_iff {v : Nat} :
    v ∈ rangeValues expr ↔ expr.reLo ≤ v ∧ v ≤ expr.reHi ∧ (v - expr.reLo) % expr.reStride = 0 := by
  rw [rangeValues, List.mem_filter, List.mem_range'_1, decide_eq_true_iff]
  omega

/-- Each range lists its values in increasing order. -/
theorem rangeValues_sorted (expr : CfsRangeExpr) : (rangeValues expr).Pairwise (· < ·) :=
  (List.pairwise_lt_range' ..).filter _

/-- With a stride of one a range lists every value between its bounds. -/
theorem rangeValues_of_stride_one (h : expr.reStride = 1) :
    rangeValues expr = List.range' expr.reLo (expr.reHi + 1 - expr.reLo) := by
  rw [rangeValues, h]
  exact List.filter_eq_self.2 fun v _ => by simp [Nat.mod_one]

/-- On ranges with a stride, `cfs_expr_list_match` matches a value exactly
when some range lists it, and never traps. -/
theorem exprsMatch_eq_true_iff (v : Nat) :
    ∀ {exprs : List CfsRangeExpr}, (∀ e ∈ exprs, 0 < e.reStride) →
      (exprsMatch v exprs = some true ↔ v ∈ exprs.flatMap rangeValues) ∧ exprsMatch v exprs ≠ none
  | [], _ => by simp [exprsMatch]
  | e :: exprs, hpos => by
    have ih := exprsMatch_eq_true_iff v fun e' (h' : e' ∈ exprs) => hpos e' (List.mem_cons_of_mem _ h')
    have he := hpos e (List.mem_cons_self ..)
    rw [exprsMatch, List.flatMap_cons, List.mem_append, mem_rangeValues_iff]
    by_cases hin : e.reLo ≤ v ∧ v ≤ e.reHi
    · rw [if_pos hin, if_neg (by omega)]
      by_cases hm : (v - e.reLo) % e.reStride = 0
      · rw [if_pos hm]
        simp [hin, hm]
      · rw [if_neg hm]
        simp only [hm, and_false, false_or]
        exact ih
    · rw [if_neg hin]
      simp only [show ¬ (e.reLo ≤ v ∧ v ≤ e.reHi ∧ (v - e.reLo) % e.reStride = 0) from
        fun h => hin ⟨h.1, h.2.1⟩, false_or]
      exact ih

/-- A value `cfs_expr_list_values` lists is one `cfs_expr_list_match`
matches, and the other way round. -/
theorem cfsExprListMatch_eq_true_iff {el : CfsExprList} (hpos : ∀ e ∈ el.elExprs, 0 < e.reStride) (v : Nat) :
    cfsExprListMatch v el = some true ↔ v ∈ listValues el :=
  (exprsMatch_eq_true_iff v hpos).1

end Match

/-- `[0-2147483647,0-2147483647]` parses with the bounds `[0, INT_MAX]`
into two ranges of `2^31` values each; the count of the `2^32` values wraps
to zero and `cfs_expr_list_values` reports an empty list, whatever `max`. -/
theorem cfs_expr_list_values_count_wraps (max : Int) :
    (cfsExprListParse "[0-2147483647,0-2147483647]".toList 0 27 0 (2 ^ 31 - 1)).map (·.2) =
        some (some ⟨[⟨0, 2 ^ 31 - 1, 1⟩, ⟨0, 2 ^ 31 - 1, 1⟩]⟩) ∧
      (listValues ⟨[⟨0, 2 ^ 31 - 1, 1⟩, ⟨0, 2 ^ 31 - 1, 1⟩]⟩).length = 2 ^ 32 ∧
      cfsExprListValues ⟨[⟨0, 2 ^ 31 - 1, 1⟩, ⟨0, 2 ^ 31 - 1, 1⟩]⟩ max = some (0, []) := by
  have hlen : (listValues ⟨[⟨0, 2 ^ 31 - 1, 1⟩, ⟨0, 2 ^ 31 - 1, 1⟩]⟩).length = 2 ^ 32 := by
    rw [listValues, List.flatMap_cons, List.flatMap_cons, List.flatMap_nil, List.append_nil, List.length_append,
      rangeValues_of_stride_one rfl, List.length_range']
    rfl
  refine ⟨by decide, hlen, ?_⟩
  rw [cfsExprListValues_eq (by decide), hlen]
  rfl

end Lustre.LibcfsString
