import Mathlib
import Lustre.NidStrings.Expand

/-! # What the expansion of a nidlist writes

Each loop of the expansion is a `DownFill.pushAll` of the addresses it
reaches, in the order it reaches them. For a numeric address range these
are the values of its expression lists (`numAddrs`), when no range steps
past `2^32`; for an IP address range they are the addresses the octets
spell, depth first (`ipAddrs`), when the loops run. So

* `libcfs_num_addr_range_expand` writes them all from the top slot down and
  returns their number when they fit; when there are more than `max_addrs`
  it fills every slot with the first of them and returns `-1`;
* `libcfs_ip_addr_range_expand` does the same when there are fewer than
  `max_addrs`, and returns `-1` from `max_addrs` on: an exact fit leaves
  `*count` at `-1`, the value the recursion returns on overflow;
* on four octets of byte values, `ipAddrs` lists exactly the addresses
  `cfs_ip_addr_match` accepts;
* `cfs_expand_nidlist` writes the NIDs of the nidlist, range by range, and
  returns their number when there are fewer than `max_nids`.
-/

namespace Lustre.NidStrings

open Lustre.LibcfsString DownFill

/-! ## Numeric address ranges -/

/-- A range the numeric loop steps through without wrapping: a stride, a
lower bound that fits a `__u32`, and an upper bound more than a stride
below `2^32`. -/
def NumRuns (e : CfsRangeExpr) : Prop :=
  0 < e.reStride ∧ e.reLo < 2 ^ 32 ∧ e.reHi + e.reStride < 2 ^ 32

instance (e : CfsRangeExpr) : Decidable (NumRuns e) := inferInstanceAs (Decidable (_ ∧ _ ∧ _))

/-- The addresses a numeric address range lists: the values of its
expression lists, in order. -/
def numAddrs (els : List CfsExprList) : List UInt32 := (els.flatMap listValues).map UInt32.ofNat

/-- Stepping from `re_lo` by `re_stride` up to `re_hi` reaches the values the
range lists. -/
theorem range'_eq_rangeValues {e : CfsRangeExpr} (h : 0 < e.reStride) :
    List.range' e.reLo ((e.reHi + e.reStride - e.reLo) / e.reStride) e.reStride = rangeValues e := by
  refine List.Pairwise.eq_of_mem_iff (List.pairwise_lt_range' e.reStride h) (rangeValues_sorted e) fun v => ?_
  rw [List.mem_range', mem_rangeValues_iff]
  constructor
  · rintro ⟨k, hk, rfl⟩
    -- the `k`-th step is at most `re_hi`, and a whole number of strides up
    have hle : (k + 1) * e.reStride ≤ e.reHi + e.reStride - e.reLo := (Nat.le_div_iff_mul_le h).mp hk
    rw [Nat.add_mul, Nat.one_mul, Nat.mul_comm] at hle
    refine ⟨Nat.le_add_right _ _, by omega, ?_⟩
    rw [Nat.add_sub_cancel_left, Nat.mul_mod_right]
  · rintro ⟨hlo, hhi, hmod⟩
    refine ⟨(v - e.reLo) / e.reStride, ?_, ?_⟩
    · have hmul : (v - e.reLo) / e.reStride * e.reStride = v - e.reLo := Nat.div_mul_cancel (Nat.dvd_of_mod_eq_zero hmod)
      rw [Nat.lt_iff_add_one_le, Nat.le_div_iff_mul_le h, Nat.add_mul, Nat.one_mul, hmul]
      omega
    · rw [Nat.mul_div_cancel' (Nat.dvd_of_mod_eq_zero hmod)]
      omega

/-- `UInt32.ofNat` keeps the order of values below `2^32`. -/
theorem ofNat_le_ofNat_iff {i j : Nat} (hi : i < 2 ^ 32) (hj : j < 2 ^ 32) :
    UInt32.ofNat i ≤ UInt32.ofNat j ↔ i ≤ j := by
  rw [UInt32.le_iff_toNat_le, UInt32.toNat_ofNat_of_lt' hi, UInt32.toNat_ofNat_of_lt' hj]

/-- The stepping loop over one range, from `i` with `n` steps to go, pushes
the values it steps through. -/
theorem numRangeLoop_eq {hi s : Nat} (hs : 0 < s) (hfit : hi + s < 2 ^ 32) :
    ∀ (n free i : Nat) (addrs : Nat → UInt32), i < 2 ^ 32 → n = (hi + s - i) / s →
      numRangeLoop (UInt32.ofNat hi) (UInt32.ofNat s) free (UInt32.ofNat i) addrs =
        pushAll ((List.range' i n s).map UInt32.ofNat) (free, addrs)
  | 0, free, i, addrs, hi32, hn => by
    -- no step left: `i` is past `re_hi`
    have hpast : ¬UInt32.ofNat i ≤ UInt32.ofNat hi := by
      rw [ofNat_le_ofNat_iff hi32 (by omega)]
      intro hle
      have : 1 ≤ (hi + s - i) / s := (Nat.le_div_iff_mul_le hs).mpr (by omega)
      omega
    cases free with
    | zero => rw [numRangeLoop, if_neg hpast]; rfl
    | succ free => rw [numRangeLoop, if_neg hpast]; rfl
  | n + 1, free, i, addrs, hi32, hn => by
    have hle : i ≤ hi := by
      by_contra hgt
      have : (hi + s - i) / s = 0 := Nat.div_eq_of_lt (by omega)
      omega
    have hstep : n = (hi + s - (i + s)) / s := by
      have : (hi - i + s) / s = (hi - i) / s + 1 := Nat.add_div_right _ hs
      rw [show hi + s - i = hi - i + s by omega] at hn
      rw [show hi + s - (i + s) = hi - i by omega]
      omega
    have hin : UInt32.ofNat i ≤ UInt32.ofNat hi := (ofNat_le_ofNat_iff hi32 (by omega)).mpr hle
    rw [List.range'_succ, List.map_cons]
    cases free with
    | zero => rw [numRangeLoop, if_pos hin]; rfl
    | succ free =>
      rw [numRangeLoop, if_pos hin, ← UInt32.ofNat_add,
        numRangeLoop_eq hs hfit n free (i + s) _ (by omega) hstep, pushAll_cons_succ]

/-- The loop over the ranges of a list pushes their values. -/
theorem numExprsLoop_eq : ∀ (res : List CfsRangeExpr), (∀ e ∈ res, NumRuns e) →
    ∀ st, numExprsLoop res st = pushAll ((res.flatMap rangeValues).map UInt32.ofNat) st
  | [], _, _ => rfl
  | e :: res, hruns, (free, addrs) => by
    obtain ⟨hs, hlo, hfit⟩ := hruns e List.mem_cons_self
    rw [numExprsLoop, numRangeLoop_eq hs hfit _ free e.reLo addrs hlo rfl, range'_eq_rangeValues hs,
      List.flatMap_cons, List.map_append, pushAll_append]
    congr 1
    funext st
    exact numExprsLoop_eq res (fun e' h' => hruns e' (List.mem_cons_of_mem e h')) st

/-- The loop over the expression lists pushes their values. -/
theorem numListsLoop_eq : ∀ (els : List CfsExprList), (∀ el ∈ els, ∀ e ∈ el.elExprs, NumRuns e) →
    ∀ st, numListsLoop els st = pushAll (numAddrs els) st
  | [], _, _ => rfl
  | el :: els, hruns, st => by
    rw [numListsLoop, numExprsLoop_eq el.elExprs (hruns el List.mem_cons_self), numAddrs, List.flatMap_cons,
      List.map_append, pushAll_append, listValues]
    congr 1
    funext st
    exact numListsLoop_eq els (fun el' h' => hruns el' (List.mem_cons_of_mem el h')) st

section NumExpand

variable {els : List CfsExprList} (hruns : ∀ el ∈ els, ∀ e ∈ el.elExprs, NumRuns e) (addrs : Nat → UInt32)
  {maxAddrs : Nat}
include hruns

theorem libcfsNumAddrRangeExpand_of_le (hle : (numAddrs els).length ≤ maxAddrs) :
    ∃ a', libcfsNumAddrRangeExpand els addrs maxAddrs = (((numAddrs els).length : Int), a') ∧
      readDown a' maxAddrs (numAddrs els).length = numAddrs els ∧ ∀ i, maxAddrs ≤ i → a' i = addrs i := by
  obtain ⟨a', hpush, hread, hframe⟩ := pushAll_of_le (numAddrs els) maxAddrs addrs hle
  refine ⟨a', ?_, hread, hframe⟩
  rw [libcfsNumAddrRangeExpand, numListsLoop_eq els hruns, hpush]
  simp only [Prod.mk.injEq, and_true]
  omega

theorem libcfsNumAddrRangeExpand_of_lt (hlt : maxAddrs < (numAddrs els).length) :
    ∃ a', libcfsNumAddrRangeExpand els addrs maxAddrs = (-1, a') ∧
      readDown a' maxAddrs maxAddrs = (numAddrs els).take maxAddrs ∧ ∀ i, maxAddrs ≤ i → a' i = addrs i := by
  obtain ⟨a', hpush, hread, hframe⟩ := pushAll_of_lt (numAddrs els) maxAddrs addrs hlt
  refine ⟨a', ?_, hread, hframe⟩
  rw [libcfsNumAddrRangeExpand, numListsLoop_eq els hruns, hpush]

end NumExpand

/-- `libcfs_num_addr_range_expand(addrranges, addrs, max_addrs)`, on ranges
that step without wrapping: when the values fit, it writes them from slot
`max_addrs - 1` down, leaves the slots from `max_addrs` on alone, and returns
their number, an exact fit included; when there are more than `max_addrs`
it returns `-1`, having written the first `max_addrs` of them from slot
`max_addrs - 1` down to slot `0`. -/
theorem libcfs_num_addr_range_expand_fills {els : List CfsExprList}
    (hruns : ∀ el ∈ els, ∀ e ∈ el.elExprs, NumRuns e) (addrs : Nat → UInt32) (maxAddrs : Nat) :
    ((numAddrs els).length ≤ maxAddrs →
        ∃ a', libcfsNumAddrRangeExpand els addrs maxAddrs = (((numAddrs els).length : Int), a') ∧
          readDown a' maxAddrs (numAddrs els).length = numAddrs els ∧ ∀ i, maxAddrs ≤ i → a' i = addrs i) ∧
      (maxAddrs < (numAddrs els).length →
        ∃ a', libcfsNumAddrRangeExpand els addrs maxAddrs = (-1, a') ∧
          readDown a' maxAddrs maxAddrs = (numAddrs els).take maxAddrs ∧ ∀ i, maxAddrs ≤ i → a' i = addrs i) :=
  ⟨libcfsNumAddrRangeExpand_of_le hruns addrs, libcfsNumAddrRangeExpand_of_lt hruns addrs⟩

/-- `1-5/2,7` in four slots: an exact fit, `7` in slot 0; in three slots
`-1`, with `1`, `3`, `5` written from slot 2 down. -/
theorem libcfs_num_addr_range_expand_fills_exact :
    (∀ el ∈ [⟨[⟨1, 5, 2⟩, ⟨7, 7, 1⟩]⟩], ∀ e ∈ CfsExprList.elExprs el, NumRuns e) ∧
      (∃ a', libcfsNumAddrRangeExpand [⟨[⟨1, 5, 2⟩, ⟨7, 7, 1⟩]⟩] (fun _ => 0) 4 = (4, a') ∧
        readDown a' 4 4 = [1, 3, 5, 7]) ∧
      ∃ a', libcfsNumAddrRangeExpand [⟨[⟨1, 5, 2⟩, ⟨7, 7, 1⟩]⟩] (fun _ => 0) 3 = (-1, a') ∧
        readDown a' 3 3 = [1, 3, 5] := by
  have hruns : ∀ el ∈ [(⟨[⟨1, 5, 2⟩, ⟨7, 7, 1⟩]⟩ : CfsExprList)], ∀ e ∈ el.elExprs, NumRuns e := by decide
  have hvals : numAddrs [⟨[⟨1, 5, 2⟩, ⟨7, 7, 1⟩]⟩] = [1, 3, 5, 7] := by decide
  obtain ⟨a', hexp, hread, -⟩ := (libcfs_num_addr_range_expand_fills hruns (fun _ => 0) 4).1 (by rw [hvals]; decide)
  obtain ⟨b', hexp', hread', -⟩ := (libcfs_num_addr_range_expand_fills hruns (fun _ => 0) 3).2 (by rw [hvals]; decide)
  rw [hvals] at hexp hread hread'
  exact ⟨hruns, ⟨a', hexp, hread⟩, b', hexp', hread'⟩

/-! ## IP address ranges -/

section Gen

variable {ρ σ : Type} (visit : Nat → σ → Option (Except ρ σ))

/-- The loop over one range visits, in order, the values the remainder test
takes. -/
theorem ipValueLoop_eq {expr : CfsRangeExpr} (h : 0 < expr.reStride) :
    ∀ (n i : Nat) (st : σ), ipValueLoop visit expr n i st =
      exitFold visit ((List.range' i n).filter fun v => (v - expr.reLo) % expr.reStride = 0) st
  | 0, _, _ => rfl
  | n + 1, i, st => by
    rw [List.range'_succ, List.filter_cons]
    simp only [ipValueLoop, rangeHit_of_pos h, Option.bind_eq_bind, Option.bind_some]
    by_cases hit : (i - expr.reLo) % expr.reStride = 0
    · simp only [hit, decide_true, if_true, exitFold, Option.bind_eq_bind]
      congr 1
      funext r
      cases r with
      | error r => rfl
      | ok st' => exact ipValueLoop_eq h n (i + 1) st'
    · simp only [hit, decide_false, Bool.false_eq_true, if_false]
      exact ipValueLoop_eq h n (i + 1) st

/-- The loop over the ranges of an octet visits the values of the octet. -/
theorem ipExprsLoop_eq : ∀ (exprs : List CfsRangeExpr), (∀ e ∈ exprs, e.Runs) →
    ∀ st : σ, ipExprsLoop visit exprs st = exitFold visit (exprs.flatMap rangeValues) st
  | [], _, _ => rfl
  | e :: exprs, hruns, st => by
    have he := hruns e List.mem_cons_self
    simp only [ipExprsLoop, rangeTurns_of_runs he, Option.bind_eq_bind, Option.bind_some,
      ipValueLoop_eq visit he.1, List.flatMap_cons, exitFold_append]
    congr 1
    funext r
    cases r with
    | error r => rfl
    | ok st' => exact ipExprsLoop_eq exprs (fun e' h' => hruns e' (List.mem_cons_of_mem e h')) st'

end Gen

/-- The addresses the octets `el :: els` spell from `result`, `el` at
`shift`, in the order the recursion reaches them: for each value of `el`,
those of the octets after it. -/
def ipAddrs : Nat → UInt32 → CfsExprList → List CfsExprList → List UInt32
  | shift, result, el, [] => (listValues el).map (octetValue shift result)
  | shift, result, el, next :: els =>
    (listValues el).flatMap fun i => ipAddrs (shift - 1) (octetValue shift result i) next els

/-- The recursion pushes the addresses the octets spell, and stops with
`-1` at the first one without a slot. -/
theorem cfsIpAddrRangeGenRecurse_eq : ∀ (els : List CfsExprList) (shift : Nat) (result : UInt32) (el : CfsExprList),
    (∀ o ∈ el :: els, ∀ e ∈ o.elExprs, e.Runs) → ∀ st,
      cfsIpAddrRangeGenRecurse shift result el els st = some (pushAll (ipAddrs shift result el els) st)
  | [], shift, result, el, hruns, st => by
    -- a leaf: each value is one push
    have hleaf : (fun i st => some (push (octetValue shift result i) st)) =
        fun i (st : Nat × (Nat → UInt32)) => some (pushAll [octetValue shift result i] st) := by
      funext i st
      rw [pushAll_singleton]
    rw [cfsIpAddrRangeGenRecurse, hleaf, ipExprsLoop_eq _ el.elExprs (hruns el List.mem_cons_self),
      exitFold_pushAll, ipAddrs, ← listValues, ← List.map_eq_flatMap]
  | next :: els, shift, result, el, hruns, st => by
    have hrest : (fun i st => cfsIpAddrRangeGenRecurse (shift - 1) (octetValue shift result i) next els st) =
        fun i st => some (pushAll (ipAddrs (shift - 1) (octetValue shift result i) next els) st) := by
      funext i st
      exact cfsIpAddrRangeGenRecurse_eq els (shift - 1) _ next (fun o ho => hruns o (List.mem_cons_of_mem el ho)) st
    rw [cfsIpAddrRangeGenRecurse, hrest, ipExprsLoop_eq _ el.elExprs (hruns el List.mem_cons_self),
      exitFold_pushAll, ipAddrs, ← listValues]

section IpExpand

variable {el : CfsExprList} {els : List CfsExprList} (hruns : ∀ o ∈ el :: els, ∀ e ∈ o.elExprs, e.Runs)
  (addrs : Nat → UInt32) {maxAddrs : Nat}
include hruns

theorem libcfsIpAddrRangeExpand_of_lt (hlt : (ipAddrs 3 0 el els).length < maxAddrs) :
    ∃ a', libcfsIpAddrRangeExpand (el :: els) addrs maxAddrs = some (((ipAddrs 3 0 el els).length : Int), a') ∧
      readDown a' maxAddrs (ipAddrs 3 0 el els).length = ipAddrs 3 0 el els ∧ ∀ i, maxAddrs ≤ i → a' i = addrs i := by
  obtain ⟨a', hpush, hread, hframe⟩ := pushAll_of_le _ maxAddrs addrs hlt.le
  refine ⟨a', ?_, hread, hframe⟩
  rw [libcfsIpAddrRangeExpand, cfsIpAddrRangeGen, cfsIpAddrRangeGenRecurse_eq els 3 0 el hruns, hpush]
  -- `idx` is the slot below the last address, not `-1`
  have hidx : ((maxAddrs - (ipAddrs 3 0 el els).length : Nat) : Int) - 1 ≠ -1 := by omega
  simp only [Option.map_some, if_neg hidx, Option.some.injEq, Prod.mk.injEq, and_true]
  omega

theorem libcfsIpAddrRangeExpand_of_ge (hge : maxAddrs ≤ (ipAddrs 3 0 el els).length) :
    ∃ a', libcfsIpAddrRangeExpand (el :: els) addrs maxAddrs = some (-1, a') := by
  have hgen := cfsIpAddrRangeGenRecurse_eq els 3 0 el hruns (maxAddrs, addrs)
  rcases Nat.lt_or_eq_of_le hge with hlt | heq
  · obtain ⟨a', hpush, -, -⟩ := pushAll_of_lt _ maxAddrs addrs hlt
    exact ⟨a', by rw [libcfsIpAddrRangeExpand, cfsIpAddrRangeGen, hgen, hpush]; rfl⟩
  · -- an exact fit leaves `*count` at `-1`
    obtain ⟨a', hpush, -, -⟩ := pushAll_of_le _ maxAddrs addrs (le_of_eq heq.symm)
    refine ⟨a', ?_⟩
    rw [libcfsIpAddrRangeExpand, cfsIpAddrRangeGen, hgen, hpush, heq, Nat.sub_self]
    rfl

end IpExpand

/-- `libcfs_ip_addr_range_expand(addrranges, addrs, max_addrs)`, on octets
whose loops run: when there are fewer addresses than `max_addrs`, it writes
them from slot `max_addrs - 1` down, leaves the slots from `max_addrs` on
alone, and returns their number; from `max_addrs` addresses on, an exact fit
included, it returns `-1`. -/
theorem libcfs_ip_addr_range_expand_fills {el : CfsExprList} {els : List CfsExprList}
    (hruns : ∀ o ∈ el :: els, ∀ e ∈ o.elExprs, e.Runs) (addrs : Nat → UInt32) (maxAddrs : Nat) :
    ((ipAddrs 3 0 el els).length < maxAddrs →
        ∃ a', libcfsIpAddrRangeExpand (el :: els) addrs maxAddrs = some (((ipAddrs 3 0 el els).length : Int), a') ∧
          readDown a' maxAddrs (ipAddrs 3 0 el els).length = ipAddrs 3 0 el els ∧
          ∀ i, maxAddrs ≤ i → a' i = addrs i) ∧
      (maxAddrs ≤ (ipAddrs 3 0 el els).length →
        ∃ a', libcfsIpAddrRangeExpand (el :: els) addrs maxAddrs = some (-1, a')) :=
  ⟨libcfsIpAddrRangeExpand_of_lt hruns addrs, libcfsIpAddrRangeExpand_of_ge hruns addrs⟩

/-- `10.0.0.[1-3]`: in four slots its three addresses, in three `-1`. -/
theorem libcfs_ip_addr_range_expand_fills_exact :
    (∀ o ∈ [⟨[⟨10, 10, 1⟩]⟩, ⟨[⟨0, 0, 1⟩]⟩, ⟨[⟨0, 0, 1⟩]⟩, ⟨[⟨1, 3, 1⟩]⟩], ∀ e ∈ CfsExprList.elExprs o, e.Runs) ∧
      (∃ a', libcfsIpAddrRangeExpand [⟨[⟨10, 10, 1⟩]⟩, ⟨[⟨0, 0, 1⟩]⟩, ⟨[⟨0, 0, 1⟩]⟩, ⟨[⟨1, 3, 1⟩]⟩] (fun _ => 0) 4 =
          some (3, a') ∧ readDown a' 4 3 = [0x0A000001, 0x0A000002, 0x0A000003]) ∧
      ∃ a', libcfsIpAddrRangeExpand [⟨[⟨10, 10, 1⟩]⟩, ⟨[⟨0, 0, 1⟩]⟩, ⟨[⟨0, 0, 1⟩]⟩, ⟨[⟨1, 3, 1⟩]⟩] (fun _ => 0) 3 =
        some (-1, a') := by
  have hruns : ∀ o ∈ [(⟨[⟨10, 10, 1⟩]⟩ : CfsExprList), ⟨[⟨0, 0, 1⟩]⟩, ⟨[⟨0, 0, 1⟩]⟩, ⟨[⟨1, 3, 1⟩]⟩],
      ∀ e ∈ o.elExprs, e.Runs := by decide
  have haddrs : ipAddrs 3 0 ⟨[⟨10, 10, 1⟩]⟩ [⟨[⟨0, 0, 1⟩]⟩, ⟨[⟨0, 0, 1⟩]⟩, ⟨[⟨1, 3, 1⟩]⟩] =
      [0x0A000001, 0x0A000002, 0x0A000003] := by decide
  obtain ⟨a', hexp, hread, -⟩ := (libcfs_ip_addr_range_expand_fills hruns (fun _ => 0) 4).1 (by rw [haddrs]; decide)
  rw [haddrs] at hexp hread
  exact ⟨hruns, ⟨a', hexp, hread⟩, (libcfs_ip_addr_range_expand_fills hruns (fun _ => 0) 3).2 (by rw [haddrs]; decide)⟩

/-! ## The addresses of four octets -/

/-- A byte put at octet `shift` of an address. -/
theorem toNat_octetValue {shift i : Nat} (result : UInt32) (hs : shift ≤ 3) (hi : i < 256) :
    (octetValue shift result i).toNat = result.toNat ||| i * 2 ^ (shift * 8) := by
  have hpow : 2 ^ (shift * 8) ≤ 2 ^ 24 := Nat.pow_le_pow_right (by norm_num) (by omega)
  have hlt : i * 2 ^ (shift * 8) < 2 ^ 32 :=
    calc i * 2 ^ (shift * 8) < 256 * 2 ^ (shift * 8) := Nat.mul_lt_mul_of_pos_right hi (Nat.two_pow_pos _)
      _ ≤ 256 * 2 ^ 24 := Nat.mul_le_mul_left _ hpow
      _ = 2 ^ 32 := by norm_num
  have hi' : (UInt32.ofNat i).toNat = i := UInt32.toNat_ofNat_of_lt' (show i < 2 ^ 32 by omega)
  have hs' : (UInt32.ofNat (shift * 8)).toNat = shift * 8 := UInt32.toNat_ofNat_of_lt' (show shift * 8 < 2 ^ 32 by omega)
  rw [octetValue, UInt32.toNat_or, UInt32.toNat_shiftLeft, hi', hs', Nat.mod_eq_of_lt (by omega : shift * 8 < 32),
    Nat.shiftLeft_eq, Nat.mod_eq_of_lt hlt]

/-- The address the recursion builds from four bytes. -/
theorem toNat_octetValue_four {a b c d : Nat} (ha : a < 256) (hb : b < 256) (hc : c < 256) (hd : d < 256) :
    (octetValue 0 (octetValue 1 (octetValue 2 (octetValue 3 0 a) b) c) d).toNat =
      a * 2 ^ 24 + b * 2 ^ 16 + c * 2 ^ 8 + d := by
  rw [toNat_octetValue _ (by norm_num) hd, toNat_octetValue _ (by norm_num) hc, toNat_octetValue _ (by norm_num) hb,
    toNat_octetValue _ (by norm_num) ha, UInt32.toNat_zero, Nat.zero_or]
  show a * 2 ^ 24 ||| b * 2 ^ 16 ||| c * 2 ^ 8 ||| d * 2 ^ 0 = _
  rw [pow_zero, Nat.mul_one]
  exact CArith.bytes_or_eq_add hb hc hd

theorem toNat_and_ff (a : UInt32) : (a &&& 0xff).toNat = a.toNat % 256 := by
  rw [UInt32.toNat_and, show (0xff : UInt32).toNat = 2 ^ 8 - 1 from rfl, Nat.and_two_pow_sub_one_eq_mod]

theorem toNat_shiftRight_eight (a : UInt32) : (a >>> 8).toNat = a.toNat / 256 := by
  rw [UInt32.toNat_shiftRight, show (8 : UInt32).toNat % 32 = 8 from rfl, Nat.shiftRight_eq_div_pow]

/-- A turn of `cfs_ip_addr_match`'s loop on an octet with strides: the low
byte must be one of its values. -/
theorem ipAddrMatchLoop_cons_eq_true {el : CfsExprList} (hpos : ∀ e ∈ el.elExprs, 0 < e.reStride) (addr : UInt32)
    (i : Nat) (els : List CfsExprList) :
    ipAddrMatchLoop addr i (el :: els) = some true ↔
      addr.toNat % 256 ∈ listValues el ∧ ipAddrMatchLoop (addr >>> 8) (i + 1) els = some true := by
  rw [ipAddrMatchLoop, ← toNat_and_ff, ← cfsExprListMatch_eq_true_iff hpos]
  cases h : cfsExprListMatch (addr &&& 0xff).toNat el with
  | none => exact absurd h (exprsMatch_eq_true_iff _ hpos).2
  | some b => cases b <;> simp

/-- On four octets with strides, `cfs_ip_addr_match` accepts an address
exactly when each byte is a value of its octet. -/
theorem cfsIpAddrMatch_four_iff {o₁ o₂ o₃ o₄ : CfsExprList}
    (hpos : ∀ o ∈ [o₁, o₂, o₃, o₄], ∀ e ∈ o.elExprs, 0 < e.reStride) (addr : UInt32) :
    cfsIpAddrMatch addr [o₁, o₂, o₃, o₄] = some true ↔
      addr.toNat % 256 ∈ listValues o₄ ∧ addr.toNat / 256 % 256 ∈ listValues o₃ ∧
        addr.toNat / 256 / 256 % 256 ∈ listValues o₂ ∧ addr.toNat / 256 / 256 / 256 % 256 ∈ listValues o₁ := by
  have hend : ipAddrMatchLoop (addr >>> 8 >>> 8 >>> 8 >>> 8) (0 + 1 + 1 + 1 + 1) [] = some true := rfl
  rw [cfsIpAddrMatch, show [o₁, o₂, o₃, o₄].reverse = [o₄, o₃, o₂, o₁] from rfl,
    ipAddrMatchLoop_cons_eq_true (hpos o₄ (by simp)), ipAddrMatchLoop_cons_eq_true (hpos o₃ (by simp)),
    ipAddrMatchLoop_cons_eq_true (hpos o₂ (by simp)), ipAddrMatchLoop_cons_eq_true (hpos o₁ (by simp)), hend]
  simp only [toNat_shiftRight_eight, and_true]

/-- On four octets of byte values with strides, the addresses
`libcfs_ip_addr_range_expand` writes are exactly those `cfs_ip_addr_match`
accepts. -/
theorem libcfs_ip_addr_range_expand_matches {o₁ o₂ o₃ o₄ : CfsExprList}
    (hpos : ∀ o ∈ [o₁, o₂, o₃, o₄], ∀ e ∈ o.elExprs, 0 < e.reStride)
    (hbyte : ∀ o ∈ [o₁, o₂, o₃, o₄], ∀ e ∈ o.elExprs, e.reHi < 256) (addr : UInt32) :
    addr ∈ ipAddrs 3 0 o₁ [o₂, o₃, o₄] ↔ cfsIpAddrMatch addr [o₁, o₂, o₃, o₄] = some true := by
  -- every value of an octet is a byte
  have hval : ∀ o ∈ [o₁, o₂, o₃, o₄], ∀ v ∈ listValues o, v < 256 := by
    intro o ho v hv
    obtain ⟨e, he, hv'⟩ := List.mem_flatMap.mp hv
    have := (mem_rangeValues_iff.mp hv').2.1
    have := hbyte o ho e he
    omega
  rw [cfsIpAddrMatch_four_iff hpos]
  simp only [ipAddrs, List.mem_flatMap, List.mem_map]
  constructor
  · rintro ⟨a, ha, b, hb, c, hc, d, hd, rfl⟩
    rw [toNat_octetValue_four (hval o₁ (by simp) a ha) (hval o₂ (by simp) b hb) (hval o₃ (by simp) c hc)
      (hval o₄ (by simp) d hd)]
    have h4 := hval o₄ (by simp) d hd
    have h3 := hval o₃ (by simp) c hc
    have h2 := hval o₂ (by simp) b hb
    have h1 := hval o₁ (by simp) a ha
    -- read the bytes back
    have e4 : (a * 2 ^ 24 + b * 2 ^ 16 + c * 2 ^ 8 + d) % 256 = d := by omega
    have e3 : (a * 2 ^ 24 + b * 2 ^ 16 + c * 2 ^ 8 + d) / 256 % 256 = c := by omega
    have e2 : (a * 2 ^ 24 + b * 2 ^ 16 + c * 2 ^ 8 + d) / 256 / 256 % 256 = b := by omega
    have e1 : (a * 2 ^ 24 + b * 2 ^ 16 + c * 2 ^ 8 + d) / 256 / 256 / 256 % 256 = a := by omega
    rw [e4, e3, e2, e1]
    exact ⟨hd, hc, hb, ha⟩
  · rintro ⟨h4, h3, h2, h1⟩
    refine ⟨_, h1, _, h2, _, h3, _, h4, UInt32.toNat_inj.mp ?_⟩
    rw [toNat_octetValue_four (by omega) (by omega) (by omega) (by omega)]
    have := addr.toNat_lt
    omega

/-- `10.0.0.[1-3]` lists `10.0.0.2`, which it matches. -/
theorem libcfs_ip_addr_range_expand_matches_two :
    (∀ o ∈ [⟨[⟨10, 10, 1⟩]⟩, ⟨[⟨0, 0, 1⟩]⟩, ⟨[⟨0, 0, 1⟩]⟩, ⟨[⟨1, 3, 1⟩]⟩], ∀ e ∈ CfsExprList.elExprs o, 0 < e.reStride) ∧
      (∀ o ∈ [⟨[⟨10, 10, 1⟩]⟩, ⟨[⟨0, 0, 1⟩]⟩, ⟨[⟨0, 0, 1⟩]⟩, ⟨[⟨1, 3, 1⟩]⟩], ∀ e ∈ CfsExprList.elExprs o, e.reHi < 256) ∧
      (0x0A000002 ∈ ipAddrs 3 0 ⟨[⟨10, 10, 1⟩]⟩ [⟨[⟨0, 0, 1⟩]⟩, ⟨[⟨0, 0, 1⟩]⟩, ⟨[⟨1, 3, 1⟩]⟩] ↔
        cfsIpAddrMatch 0x0A000002 [⟨[⟨10, 10, 1⟩]⟩, ⟨[⟨0, 0, 1⟩]⟩, ⟨[⟨0, 0, 1⟩]⟩, ⟨[⟨1, 3, 1⟩]⟩] = some true) :=
  ⟨by decide, by decide, libcfs_ip_addr_range_expand_matches (by decide) (by decide) 0x0A000002⟩

/-! ## Whole nidlists -/

/-- The addresses an address range of an LND lists, in the order its
expansion writes them. -/
def Netstrfns.rangeAddrs (nf : Netstrfns) (els : List CfsExprList) : List UInt32 :=
  match nf.nfAddrlist, els with
  | .num, els => numAddrs els
  | .ip, [] => []
  | .ip, el :: els => ipAddrs 3 0 el els

/-- An address range its LND expands with neither a trap nor a wrap: ranges
that step within `2^32` for a numeric LND, and octets whose loops run for an
IP one. -/
def Netstrfns.Expands (nf : Netstrfns) (els : List CfsExprList) : Prop :=
  (nf.nfAddrlist = .num → ∀ el ∈ els, ∀ e ∈ el.elExprs, NumRuns e) ∧
    (nf.nfAddrlist = .ip → els ≠ [] ∧ ∀ el ∈ els, ∀ e ∈ el.elExprs, e.Runs)

instance (nf : Netstrfns) (els : List CfsExprList) : Decidable (nf.Expands els) :=
  inferInstanceAs (Decidable (_ ∧ _))

/-- The NIDs of a nidrange, address range after address range. -/
def nidrangeNids (nr : Nidrange) : List UInt64 :=
  (nr.nrAddrranges.flatMap fun ar => nr.nrNetstrfns.rangeAddrs ar.arNumaddrRanges).map
    (lnetMkNid (lnetMkNet nr.nrNetstrfns.nfType (UInt32.ofNat nr.nrNetnum)))

/-- `nf_expand_addrrange` with room to spare writes the range's addresses
from slot `count - 1` down and returns their number. -/
theorem Netstrfns.expandAddrrange_fills {nf : Netstrfns} {els : List CfsExprList} (h : nf.Expands els)
    (addrs : Nat → UInt32) {count : Nat} (hlt : (nf.rangeAddrs els).length < count) :
    ∃ a', nf.expandAddrrange els addrs count = some (((nf.rangeAddrs els).length : Int), a') ∧
      readDown a' count (nf.rangeAddrs els).length = nf.rangeAddrs els ∧ ∀ i, count ≤ i → a' i = addrs i := by
  unfold Netstrfns.expandAddrrange
  unfold Netstrfns.rangeAddrs at hlt ⊢
  cases hnf : nf.nfAddrlist with
  | num =>
    rw [hnf] at hlt
    obtain ⟨a', hexp, hread, hframe⟩ := libcfsNumAddrRangeExpand_of_le (h.1 hnf) addrs hlt.le
    exact ⟨a', by rw [hexp], hread, hframe⟩
  | ip =>
    obtain ⟨hne, hruns⟩ := h.2 hnf
    obtain ⟨el, els, rfl⟩ := List.exists_cons_of_ne_nil hne
    rw [hnf] at hlt
    exact libcfsIpAddrRangeExpand_of_lt hruns addrs hlt

/-- The loop of `libcfs_expand_nidrange` with room to spare writes the
addresses of the ranges one after the other, from slot `count - 1` down. -/
theorem expandAddrrangesLoop_fills (nf : Netstrfns) (maxNids : Int) :
    ∀ (ars : List Addrrange) (addrs : Nat → UInt32) (count : Nat), (∀ ar ∈ ars, nf.Expands ar.arNumaddrRanges) →
      (ars.flatMap fun ar => nf.rangeAddrs ar.arNumaddrRanges).length < count →
      ∃ a', expandAddrrangesLoop nf maxNids ars addrs count =
          some (maxNids - count + (ars.flatMap fun ar => nf.rangeAddrs ar.arNumaddrRanges).length, a') ∧
        readDown a' count (ars.flatMap fun ar => nf.rangeAddrs ar.arNumaddrRanges).length =
          ars.flatMap (fun ar => nf.rangeAddrs ar.arNumaddrRanges) ∧
        ∀ i, count ≤ i → a' i = addrs i
  | [], addrs, count, _, _ => ⟨addrs, by rw [expandAddrrangesLoop, List.flatMap_nil, List.length_nil]; simp, rfl,
      fun _ _ => rfl⟩
  | ar :: ars, addrs, count, hexp, hlt => by
    rw [List.flatMap_cons, List.length_append] at hlt ⊢
    obtain ⟨a₁, hexp₁, hread₁, hframe₁⟩ :=
      Netstrfns.expandAddrrange_fills (hexp ar List.mem_cons_self) addrs (by omega : _ < count)
    obtain ⟨a₂, hloop, hread₂, hframe₂⟩ := expandAddrrangesLoop_fills nf maxNids ars a₁
      (count - (nf.rangeAddrs ar.arNumaddrRanges).length) (fun ar' h' => hexp ar' (List.mem_cons_of_mem ar h'))
      (by omega)
    refine ⟨a₂, ?_, ?_, fun i hi => by rw [hframe₂ i (by omega), hframe₁ i hi]⟩
    · rw [expandAddrrangesLoop, Int.toNat_natCast, hexp₁]
      simp only [Option.bind_eq_bind, Option.bind_some, Int.not_lt.mpr (Int.natCast_nonneg _), if_false]
      rw [← Nat.cast_sub (by omega), hloop]
      congr 2
      omega
    · -- the later ranges write below the slots of this one
      rw [readDown_add, hread₂,
        readDown_congr (by omega) fun i hi _ => hframe₂ i (by omega), hread₁]

/-- The loop of `cfs_expand_nidlist` with room to spare writes the NIDs of
the nidranges one after the other. -/
theorem expandNidrangesLoop_fills (maxNids : Int) :
    ∀ (nrs : List Nidrange) (addrs : Nat → UInt32) (count : Nat) (out : List UInt64),
      (∀ nr ∈ nrs, ∀ ar ∈ nr.nrAddrranges, nr.nrNetstrfns.Expands ar.arNumaddrRanges) →
      (nrs.flatMap nidrangeNids).length < count →
      expandNidrangesLoop maxNids nrs addrs count out =
        some (maxNids - count + (nrs.flatMap nidrangeNids).length, out ++ nrs.flatMap nidrangeNids)
  | [], _, count, out, _, _ => by
    rw [expandNidrangesLoop, List.flatMap_nil, List.length_nil, List.append_nil]
    simp
  | nr :: nrs, addrs, count, out, hexp, hlt => by
    rw [List.flatMap_cons, List.length_append] at hlt ⊢
    have hlen : (nidrangeNids nr).length =
        (nr.nrAddrranges.flatMap fun ar => nr.nrNetstrfns.rangeAddrs ar.arNumaddrRanges).length := by
      rw [nidrangeNids, List.length_map]
    obtain ⟨a', hloop, hread, -⟩ := expandAddrrangesLoop_fills nr.nrNetstrfns count nr.nrAddrranges addrs count
      (hexp nr List.mem_cons_self) (by omega)
    rw [expandNidrangesLoop, libcfsExpandNidrange, hloop]
    simp only [Option.bind_eq_bind, Option.bind_some, sub_self, zero_add,
      Int.not_lt.mpr (Int.natCast_nonneg _), if_false, Int.toNat_natCast, hread]
    rw [← Nat.cast_sub (by omega), expandNidrangesLoop_fills maxNids nrs a' _ _
      (fun nr' h' => hexp nr' (List.mem_cons_of_mem nr h')) (by omega), List.append_assoc, ← nidrangeNids]
    congr 2
    omega

/-- `cfs_expand_nidlist(nidlist, lnet_nidlist, max_nids)` on a nidlist whose
address ranges its LNDs expand, with fewer NIDs than `max_nids`: it writes
the NIDs of the nidranges in order, each nidrange's address range after
address range, and returns their number. -/
theorem cfs_expand_nidlist_fills {nidlist : List Nidrange}
    (hexp : ∀ nr ∈ nidlist, ∀ ar ∈ nr.nrAddrranges, nr.nrNetstrfns.Expands ar.arNumaddrRanges) {maxNids : Nat}
    (hlt : (nidlist.flatMap nidrangeNids).length < maxNids) :
    cfsExpandNidlist nidlist maxNids =
      some (((nidlist.flatMap nidrangeNids).length : Int), nidlist.flatMap nidrangeNids) := by
  rw [cfsExpandNidlist, expandNidrangesLoop_fills _ nidlist _ maxNids [] hexp hlt, sub_self, zero_add,
    List.nil_append]

/-- `10.0.0.[1-3]@tcp` into four NIDs. -/
theorem cfs_expand_nidlist_fills_tcp :
    (∀ nr ∈ [⟨[⟨[⟨[⟨10, 10, 1⟩]⟩, ⟨[⟨0, 0, 1⟩]⟩, ⟨[⟨0, 0, 1⟩]⟩, ⟨[⟨1, 3, 1⟩]⟩]⟩], false,
        ⟨sockLnd, ['t', 'c', 'p'], .ip, .ip, .ip⟩, 0⟩],
      ∀ ar ∈ Nidrange.nrAddrranges nr, nr.nrNetstrfns.Expands ar.arNumaddrRanges) ∧
      cfsExpandNidlist [⟨[⟨[⟨[⟨10, 10, 1⟩]⟩, ⟨[⟨0, 0, 1⟩]⟩, ⟨[⟨0, 0, 1⟩]⟩, ⟨[⟨1, 3, 1⟩]⟩]⟩], false,
        ⟨sockLnd, ['t', 'c', 'p'], .ip, .ip, .ip⟩, 0⟩] 4 =
        some (3, [0x200000A000001, 0x200000A000002, 0x200000A000003]) := by
  have hexp : ∀ nr ∈ [(⟨[⟨[⟨[⟨10, 10, 1⟩]⟩, ⟨[⟨0, 0, 1⟩]⟩, ⟨[⟨0, 0, 1⟩]⟩, ⟨[⟨1, 3, 1⟩]⟩]⟩], false,
      ⟨sockLnd, ['t', 'c', 'p'], .ip, .ip, .ip⟩, 0⟩ : Nidrange)],
      ∀ ar ∈ nr.nrAddrranges, nr.nrNetstrfns.Expands ar.arNumaddrRanges := by decide
  have hnids : [(⟨[⟨[⟨[⟨10, 10, 1⟩]⟩, ⟨[⟨0, 0, 1⟩]⟩, ⟨[⟨0, 0, 1⟩]⟩, ⟨[⟨1, 3, 1⟩]⟩]⟩], false,
      ⟨sockLnd, ['t', 'c', 'p'], .ip, .ip, .ip⟩, 0⟩ : Nidrange)].flatMap nidrangeNids =
      [0x200000A000001, 0x200000A000002, 0x200000A000003] := by decide
  have h := @cfs_expand_nidlist_fills _ hexp 4 (by rw [hnids]; decide)
  rw [hnids] at h
  exact ⟨hexp, h⟩

end Lustre.NidStrings
