import Mathlib
import Lustre.Lib.ExceptPost
import Lustre.NidStrings.MinMax
import Lustre.NidStrings.Expand.Spec

/-! # What the least and the greatest address bound

`cfs_ip_ar_min_max` accepts an address range of four byte octets only when
the addresses it matches are all those between two addresses, and then
returns those two (`cfs_ip_ar_min_max_interval`): its checks are that each
octet is one range of stride one and that, once an octet is a range, every
later octet is all of `0-255`. Over the octets, the addresses matched so far
form an interval, and an octet keeps it one exactly under that check
(`octet_interval_step`).

`cfs_ip_min_max` folds the ranges' bounds into the least and the greatest
address of the nidlist, which bound every address it covers and are covered
themselves, provided no range holds `0.0.0.0`, which the fold reads as "no
least address yet" (`cfs_ip_min_max_tight`).

`cfs_num_min_max` takes its greatest address from the least address of a
range, `tmp_min_addr`: what it reports as greatest is always the low end of
one of the ranges (`cfs_num_min_max_reports_low`).
-/

namespace Lustre.NidStrings

open Lustre.LibcfsString

/-! ## One octet -/

/-- The ranges `cfs_ip_ar_min_max` accepts, octet after octet, `full` once an
earlier octet was a range. -/
def Contiguous : Bool → List CfsRangeExpr → Prop
  | _, [] => True
  | full, e :: es => e.reStride = 1 ∧ e.reLo ≤ e.reHi ∧ (full = true → e.reLo = 0 ∧ e.reHi = 255) ∧
      Contiguous (full || decide (e.reLo ≠ e.reHi)) es

/-- The octets written from index `i` on. -/
def setFrom (xs : List Nat) : Nat → List Nat → List Nat
  | _, [] => xs
  | i, v :: vs => setFrom (xs.set i v) (i + 1) vs

theorem ipArRangeStep_succ (st : IpArMinMax) (n : Nat) (e : CfsRangeExpr) :
    ipArRangeStep st (n + 1) e = .error (-einval) := by
  simp [ipArRangeStep]

/-- What an accepted range is and does. -/
theorem ipArRangeStep_ok {st st' : IpArMinMax} {e : CfsRangeExpr} (h : ipArRangeStep st 0 e = .ok st') :
    e.reStride = 1 ∧ e.reLo ≤ e.reHi ∧ (st.expectFullOctet = true → e.reLo = 0 ∧ e.reHi = 255) ∧
      st' = { minIp := st.minIp.set st.curOctet e.reLo, maxIp := st.maxIp.set st.curOctet e.reHi,
              curOctet := st.curOctet, expectFullOctet := st.expectFullOctet || decide (e.reLo ≠ e.reHi) } := by
  unfold ipArRangeStep at h
  rw [if_neg (Nat.lt_irrefl 0)] at h
  by_cases hfull : (st.expectFullOctet && (e.reLo ≠ 0 || e.reHi ≠ 255)) = true
  · rw [if_pos hfull] at h
    cases h
  rw [if_neg hfull] at h
  by_cases hs : e.reStride ≠ 1
  · rw [if_pos hs] at h
    cases h
  rw [if_neg hs] at h
  by_cases hlt : e.reLo > e.reHi
  · rw [if_pos hlt] at h
    cases h
  rw [if_neg hlt] at h
  cases h
  refine ⟨not_not.mp hs, Nat.le_of_not_lt hlt, fun hf => ?_, rfl⟩
  simpa [hf] using hfull

/-- An octet of one or more ranges is accepted only as a single range. -/
theorem ipArExprsLoop_ok {exprs : List CfsRangeExpr} {st st' : IpArMinMax} (hne : exprs ≠ [])
    (h : ipArExprsLoop exprs 0 st = .ok st') : ∃ e, exprs = [e] ∧ ipArRangeStep st 0 e = .ok st' := by
  match exprs, hne with
  | e :: rest, _ =>
    obtain ⟨s₁, hs₁, hrest⟩ := Except.bind_eq_ok.mp h
    cases rest with
    | nil =>
      cases hrest
      exact ⟨e, rfl, hs₁⟩
    | cons e₂ rest =>
      -- the second range of an octet is refused
      obtain ⟨_, h₂, -⟩ := Except.bind_eq_ok.mp hrest
      rw [ipArRangeStep_succ] at h₂
      cases h₂

/-- The loop over the octets, run to its end: each octet a single range, the
ranges contiguous, and their bounds written in turn. -/
theorem ipArOctetsLoop_ok : ∀ (os : List CfsExprList) (st st' : IpArMinMax), (∀ o ∈ os, o.elExprs ≠ []) →
    ipArOctetsLoop os st = .ok st' →
    ∃ es : List CfsRangeExpr, os = es.map (fun e => ⟨[e]⟩) ∧ Contiguous st.expectFullOctet es ∧
      st'.minIp = setFrom st.minIp st.curOctet (es.map CfsRangeExpr.reLo) ∧
      st'.maxIp = setFrom st.maxIp st.curOctet (es.map CfsRangeExpr.reHi)
  | [], st, st', _, h => by
    cases h
    exact ⟨[], rfl, trivial, rfl, rfl⟩
  | o :: os, st, st', hne, h => by
    obtain ⟨s₁, hs₁, hrest⟩ := Except.bind_eq_ok.mp h
    obtain ⟨e, he, hstep⟩ := ipArExprsLoop_ok (hne o (List.mem_cons_self ..)) hs₁
    obtain ⟨hstride, hle, hfull, rfl⟩ := ipArRangeStep_ok hstep
    obtain ⟨es, rfl, hcont, hmin, hmax⟩ :=
      ipArOctetsLoop_ok os _ st' (fun o' ho' => hne o' (List.mem_cons_of_mem _ ho')) hrest
    refine ⟨e :: es, ?_, ⟨hstride, hle, hfull, hcont⟩, hmin, hmax⟩
    rw [List.map_cons, ← he]

/-! ## Four octets -/

/-- The address of four byte octets, from the high one. -/
theorem toNat_ipOfOctets {a b c d : Nat} (ha : a < 256) (hb : b < 256) (hc : c < 256) (hd : d < 256) :
    (ipOfOctets [a, b, c, d]).toNat = a * 2 ^ 24 + b * 2 ^ 16 + c * 2 ^ 8 + d := by
  have h : ipOfOctets [a, b, c, d] = octetValue 0 (octetValue 1 (octetValue 2 (octetValue 3 0 a) b) c) d := by
    simp [ipOfOctets, octetValue]
  rw [h, toNat_octetValue_four ha hb hc hd]

/-- Below a prefix whose addresses form the interval `[L, H]`, an octet of
the range `[l, h]` keeps the addresses an interval when the prefix is a
single address or the octet is every byte. -/
theorem octet_interval_step {L H l h x : Nat} (hh : h < 256) (hfull : L = H ∨ l = 0 ∧ h = 255) :
    ((L ≤ x / 256 ∧ x / 256 ≤ H) ∧ l ≤ x % 256 ∧ x % 256 ≤ h) ↔ L * 256 + l ≤ x ∧ x ≤ H * 256 + h := by
  rcases hfull with rfl | ⟨rfl, rfl⟩ <;> omega

/-- Four contiguous octets match the interval between their low and their
high ends. -/
theorem octets_mem_iff {x l₁ h₁ l₂ h₂ l₃ h₃ l₄ h₄ : Nat} (hx : x < 2 ^ 32)
    (h₂lt : h₂ < 256) (h₃lt : h₃ < 256) (h₄lt : h₄ < 256)
    (hf₂ : l₁ = h₁ ∨ l₂ = 0 ∧ h₂ = 255) (hf₃ : l₁ = h₁ ∧ l₂ = h₂ ∨ l₃ = 0 ∧ h₃ = 255)
    (hf₄ : l₁ = h₁ ∧ l₂ = h₂ ∧ l₃ = h₃ ∨ l₄ = 0 ∧ h₄ = 255) :
    ((l₄ ≤ x % 256 ∧ x % 256 ≤ h₄) ∧ (l₃ ≤ x / 256 % 256 ∧ x / 256 % 256 ≤ h₃) ∧
      (l₂ ≤ x / 256 / 256 % 256 ∧ x / 256 / 256 % 256 ≤ h₂) ∧
      (l₁ ≤ x / 256 / 256 / 256 % 256 ∧ x / 256 / 256 / 256 % 256 ≤ h₁)) ↔
      l₁ * 2 ^ 24 + l₂ * 2 ^ 16 + l₃ * 2 ^ 8 + l₄ ≤ x ∧ x ≤ h₁ * 2 ^ 24 + h₂ * 2 ^ 16 + h₃ * 2 ^ 8 + h₄ := by
  have e₁ : x / 256 / 256 / 256 % 256 = x / 256 / 256 / 256 := Nat.mod_eq_of_lt (by omega)
  -- the prefix of one, two and three octets, each an interval
  have s₂ := octet_interval_step (x := x / 256 / 256) h₂lt hf₂
  have s₃ := octet_interval_step (x := x / 256) (L := l₁ * 256 + l₂) (H := h₁ * 256 + h₂) (l := l₃) h₃lt (by omega)
  have s₄ := octet_interval_step (x := x) (L := (l₁ * 256 + l₂) * 256 + l₃) (H := (h₁ * 256 + h₂) * 256 + h₃)
    (l := l₄) h₄lt (by omega)
  have hl : l₁ * 2 ^ 24 + l₂ * 2 ^ 16 + l₃ * 2 ^ 8 + l₄ = ((l₁ * 256 + l₂) * 256 + l₃) * 256 + l₄ := by ring
  have hh : h₁ * 2 ^ 24 + h₂ * 2 ^ 16 + h₃ * 2 ^ 8 + h₄ = ((h₁ * 256 + h₂) * 256 + h₃) * 256 + h₄ := by ring
  rewrite [e₁, hl, hh, ← s₄, ← s₃, ← s₂]
  -- the octets in the order the prefixes take them
  exact ⟨fun ⟨h₄, h₃, h₂, h₁⟩ => ⟨⟨⟨h₁, h₂⟩, h₃⟩, h₄⟩, fun ⟨⟨⟨h₁, h₂⟩, h₃⟩, h₄⟩ => ⟨h₄, h₃, h₂, h₁⟩⟩

/-- Four octets of byte ranges, none empty: what `cfs_ip_addr_parse` builds. -/
def ByteOctets (els : List CfsExprList) : Prop :=
  els.length = 4 ∧ ∀ o ∈ els, o.elExprs ≠ [] ∧ ∀ e ∈ o.elExprs, e.reHi < 256

instance (els : List CfsExprList) : Decidable (ByteOctets els) := inferInstanceAs (Decidable (_ ∧ _))

theorem mem_listValues_single {e : CfsRangeExpr} (h : e.reStride = 1) (v : Nat) :
    v ∈ listValues ⟨[e]⟩ ↔ e.reLo ≤ v ∧ v ≤ e.reHi := by
  rw [listValues, List.flatMap_singleton, rangeValues_of_stride_one h, List.mem_range'_1]
  omega

/-- What `cfs_ip_ar_min_max` accepts of four byte octets: one range each,
contiguous, and the two addresses their low and their high ends. -/
theorem cfsIpArMinMax_ok {ar : Addrrange} (hoct : ByteOctets ar.arNumaddrRanges) {mn mx : UInt32}
    (hok : cfsIpArMinMax ar = .ok (mn, mx)) :
    ∃ e₁ e₂ e₃ e₄ : CfsRangeExpr, ar.arNumaddrRanges = [⟨[e₁]⟩, ⟨[e₂]⟩, ⟨[e₃]⟩, ⟨[e₄]⟩] ∧
      Contiguous false [e₁, e₂, e₃, e₄] ∧ (∀ e ∈ [e₁, e₂, e₃, e₄], e.reHi < 256) ∧
      mn.toNat = e₁.reLo * 2 ^ 24 + e₂.reLo * 2 ^ 16 + e₃.reLo * 2 ^ 8 + e₄.reLo ∧
      mx.toNat = e₁.reHi * 2 ^ 24 + e₂.reHi * 2 ^ 16 + e₃.reHi * 2 ^ 8 + e₄.reHi := by
  obtain ⟨hlen, hne⟩ := hoct
  obtain ⟨st, hloop, hres⟩ := Except.bind_eq_ok.mp hok
  obtain ⟨es, hos, hcont, hmin, hmax⟩ := ipArOctetsLoop_ok _ _ st (fun o ho => (hne o ho).1) hloop
  rw [hos, List.length_map] at hlen
  match es, hos, hcont, hlen with
  | [e₁, e₂, e₃, e₄], hos, hcont, _ =>
    simp only [List.map_cons, List.map_nil] at hos
    cases hres
    have hbyte : ∀ e ∈ [e₁, e₂, e₃, e₄], e.reHi < 256 := by
      intro e he
      rw [hos] at hne
      simp only [List.mem_cons, List.not_mem_nil, or_false] at he
      rcases he with rfl | rfl | rfl | rfl <;> exact (hne _ (by simp)).2 _ (List.mem_singleton_self _)
    -- a low end is below its high end, so a byte too
    have hlo : ∀ e ∈ [e₁, e₂, e₃, e₄], e.reLo < 256 := by
      simp only [Contiguous] at hcont
      intro e he
      have := hbyte e he
      simp only [List.mem_cons, List.not_mem_nil, or_false] at he
      rcases he with rfl | rfl | rfl | rfl <;> omega
    simp only [List.map_cons, List.map_nil, setFrom, List.set_cons_zero, List.set_cons_succ] at hmin hmax
    refine ⟨e₁, e₂, e₃, e₄, hos, hcont, hbyte, ?_, ?_⟩
    · rw [hmin, toNat_ipOfOctets (hlo e₁ (by simp)) (hlo e₂ (by simp)) (hlo e₃ (by simp)) (hlo e₄ (by simp))]
    · rw [hmax, toNat_ipOfOctets (hbyte e₁ (by simp)) (hbyte e₂ (by simp)) (hbyte e₃ (by simp)) (hbyte e₄ (by simp))]

theorem cfsIpAddrMatch_iff_of_minMax {ar : Addrrange} (hoct : ByteOctets ar.arNumaddrRanges) {mn mx : UInt32}
    (hok : cfsIpArMinMax ar = .ok (mn, mx)) (addr : UInt32) :
    cfsIpAddrMatch addr ar.arNumaddrRanges = some true ↔ mn ≤ addr ∧ addr ≤ mx := by
  obtain ⟨e₁, e₂, e₃, e₄, hos, hcont, hbyte, hmn, hmx⟩ := cfsIpArMinMax_ok hoct hok
  obtain ⟨hs₁, -, -, hs₂, -, hf₂, hs₃, -, hf₃, hs₄, -, hf₄, -⟩ := hcont
  simp only [Bool.false_or, Bool.or_eq_true, decide_eq_true_eq] at hf₂ hf₃ hf₄
  have hpos : ∀ o ∈ ([⟨[e₁]⟩, ⟨[e₂]⟩, ⟨[e₃]⟩, ⟨[e₄]⟩] : List CfsExprList), ∀ e ∈ o.elExprs, 0 < e.reStride := by
    simp [hs₁, hs₂, hs₃, hs₄]
  rw [hos, cfsIpAddrMatch_four_iff hpos, mem_listValues_single hs₄, mem_listValues_single hs₃,
    mem_listValues_single hs₂, mem_listValues_single hs₁, UInt32.le_iff_toNat_le, UInt32.le_iff_toNat_le, hmn, hmx]
  exact octets_mem_iff addr.toNat_lt (hbyte e₂ (by simp)) (hbyte e₃ (by simp)) (hbyte e₄ (by simp))
    (by omega) (by omega) (by omega)

/-- The least address of an accepted range is no greater than its
greatest. -/
theorem cfsIpArMinMax_le {ar : Addrrange} (hoct : ByteOctets ar.arNumaddrRanges) {mn mx : UInt32}
    (hok : cfsIpArMinMax ar = .ok (mn, mx)) : mn ≤ mx := by
  obtain ⟨e₁, e₂, e₃, e₄, -, hcont, -, hmn, hmx⟩ := cfsIpArMinMax_ok hoct hok
  obtain ⟨-, hle₁, -, -, hle₂, -, -, hle₃, -, -, hle₄, -, -⟩ := hcont
  rewrite [UInt32.le_iff_toNat_le, hmn, hmx]
  omega

/-- An address range of byte octets that `cfs_ip_ar_min_max` accepts
matches exactly the addresses between the two it returns. -/
theorem cfs_ip_ar_min_max_interval {ar : Addrrange} (hoct : ByteOctets ar.arNumaddrRanges) {mn mx : UInt32}
    (hok : cfsIpArMinMax ar = .ok (mn, mx)) (addr : UInt32) :
    cfsIpAddrMatch addr ar.arNumaddrRanges = some true ↔ mn ≤ addr ∧ addr ≤ mx :=
  cfsIpAddrMatch_iff_of_minMax hoct hok addr

/-- `10.0.[0-3].[0-255]` runs from `10.0.0.0` to `10.0.3.255`, and matches
`10.0.2.7`, which lies between them. -/
theorem cfs_ip_ar_min_max_interval_ten :
    ByteOctets [⟨[⟨10, 10, 1⟩]⟩, ⟨[⟨0, 0, 1⟩]⟩, ⟨[⟨0, 3, 1⟩]⟩, ⟨[⟨0, 255, 1⟩]⟩] ∧
      cfsIpArMinMax ⟨[⟨[⟨10, 10, 1⟩]⟩, ⟨[⟨0, 0, 1⟩]⟩, ⟨[⟨0, 3, 1⟩]⟩, ⟨[⟨0, 255, 1⟩]⟩]⟩ = .ok (0x0A000000, 0x0A0003FF) ∧
      (cfsIpAddrMatch 0x0A000207 [⟨[⟨10, 10, 1⟩]⟩, ⟨[⟨0, 0, 1⟩]⟩, ⟨[⟨0, 3, 1⟩]⟩, ⟨[⟨0, 255, 1⟩]⟩] = some true ↔
        0x0A000000 ≤ (0x0A000207 : UInt32) ∧ (0x0A000207 : UInt32) ≤ 0x0A0003FF) :=
  ⟨by decide, by decide, @cfs_ip_ar_min_max_interval ⟨[⟨[⟨10, 10, 1⟩]⟩, ⟨[⟨0, 0, 1⟩]⟩, ⟨[⟨0, 3, 1⟩]⟩, ⟨[⟨0, 255, 1⟩]⟩]⟩
    (by decide) _ _ (by decide) 0x0A000207⟩

/-! ## The nidlist -/

/-- `if (tmp_min < min || min == 0) min = tmp_min;` once a least address is
held. -/
theorem minUpdate_spec {a m : UInt32} (hm : m ≠ 0) :
    (if a < m || m = 0 then a else m) ≤ a ∧ (if a < m || m = 0 then a else m) ≤ m ∧
      ((if a < m || m = 0 then a else m) = a ∨ (if a < m || m = 0 then a else m) = m) := by
  by_cases h : a < m
  · rw [if_pos (by simp [h])]
    exact ⟨UInt32.le_refl _, UInt32.le_of_lt h, .inl rfl⟩
  · rw [if_neg (by simp [h, hm])]
    exact ⟨UInt32.not_lt.mp h, UInt32.le_refl _, .inr rfl⟩

/-- `if (tmp_max > max) max = tmp_max;`. -/
theorem maxUpdate_spec (b M : UInt32) :
    b ≤ (if b > M then b else M) ∧ M ≤ (if b > M then b else M) ∧
      ((if b > M then b else M) = b ∨ (if b > M then b else M) = M) := by
  by_cases h : b > M
  · rw [if_pos h]
    exact ⟨UInt32.le_refl _, UInt32.le_of_lt h, .inl rfl⟩
  · rw [if_neg h]
    exact ⟨UInt32.not_lt.mp h, UInt32.le_refl _, .inr rfl⟩

/-- What the fold of `cfs_ip_min_max` holds after the address ranges `done`:
`(0, 0)` before any; after some, a least address that is one of theirs, not
`0`, and a greatest address that is one of theirs, between which the
addresses of each lie. -/
def IpBounds (done : List Addrrange) (mm : UInt32 × UInt32) : Prop :=
  done = [] ∧ mm = (0, 0) ∨
    mm.1 ≠ 0 ∧ (∃ ar ∈ done, ∃ b, cfsIpArMinMax ar = .ok (mm.1, b)) ∧
      (∃ ar ∈ done, ∃ a, cfsIpArMinMax ar = .ok (a, mm.2)) ∧
      ∀ ar ∈ done, ∃ a b, cfsIpArMinMax ar = .ok (a, b) ∧ mm.1 ≤ a ∧ b ≤ mm.2

/-- A range the fold reads with a least address other than `0` keeps the
bounds. -/
theorem IpBounds.step {done : List Addrrange} {m M a b : UInt32} {ar : Addrrange} (hinv : IpBounds done (m, M))
    (har : cfsIpArMinMax ar = .ok (a, b)) (ha : a ≠ 0) :
    IpBounds (done ++ [ar]) (if a < m || m = 0 then a else m, if b > M then b else M) := by
  right
  have hmem : ar ∈ done ++ [ar] := List.mem_append_right _ (List.mem_singleton_self _)
  rcases hinv with ⟨rfl, hmm⟩ | ⟨hm, ⟨arₘ, hmemₘ, b', hb'⟩, ⟨arₓ, hmemₓ, a', ha'⟩, hle⟩
  · -- the first range: its bounds are the fold's
    obtain ⟨rfl, rfl⟩ := Prod.mk.inj hmm
    have hM : (if b > 0 then b else 0) = b := by
      split
      · rfl
      · exact (UInt32.le_antisymm (UInt32.not_lt.mp ‹_›) UInt32.zero_le).symm
    simp only [hM, decide_true, Bool.or_true, if_true, List.nil_append, List.mem_singleton, forall_eq]
    exact ⟨ha, ⟨ar, rfl, b, har⟩, ⟨ar, rfl, a, har⟩, a, b, har, UInt32.le_refl _, UInt32.le_refl _⟩
  · -- a later range: each bound moves to the range's or stays
    obtain ⟨hna, hnm, hn⟩ := minUpdate_spec (a := a) hm
    obtain ⟨hbN, hMN, hN⟩ := maxUpdate_spec b M
    refine ⟨?_, ?_, ?_, fun ar' har' => ?_⟩
    · rcases hn with h | h <;> rw [h] <;> assumption
    · rcases hn with h | h <;> rw [h]
      · exact ⟨ar, hmem, b, har⟩
      · exact ⟨arₘ, List.mem_append_left _ hmemₘ, b', hb'⟩
    · rcases hN with h | h <;> rw [h]
      · exact ⟨ar, hmem, a, har⟩
      · exact ⟨arₓ, List.mem_append_left _ hmemₓ, a', ha'⟩
    · rcases List.mem_append.mp har' with hd | hs
      · obtain ⟨a'', b'', hr, h₁, h₂⟩ := hle ar' hd
        exact ⟨a'', b'', hr, UInt32.le_trans hnm h₁, UInt32.le_trans h₂ hMN⟩
      · rw [List.mem_singleton.mp hs]
        exact ⟨a, b, har, hna, hbN⟩

/-- The fold over a nidrange's address ranges, run to its end. -/
theorem ipMinMaxArs_bounds : ∀ (ars done : List Addrrange) (mm res : UInt32 × UInt32), IpBounds done mm →
    (∀ ar ∈ ars, ∀ a b, cfsIpArMinMax ar = .ok (a, b) → a ≠ 0) →
    ipMinMaxArs ars mm = .ok res → IpBounds (done ++ ars) res
  | [], done, mm, res, hinv, _, h => by
    cases h
    rwa [List.append_nil]
  | ar :: ars, done, (m, M), res, hinv, hnz, h => by
    obtain ⟨⟨a, b⟩, har, hrest⟩ := Except.bind_eq_ok.mp h
    have hnext := ipMinMaxArs_bounds ars (done ++ [ar]) _ res
      (hinv.step har (hnz ar (List.mem_cons_self ..) a b har)) (fun ar' h' => hnz ar' (List.mem_cons_of_mem _ h')) hrest
    rwa [List.append_assoc, List.singleton_append] at hnext

/-- What `cfs_ip_min_max` returns: `(0, 0)` for no nidrange, all addresses
for a first nidrange `*`, and otherwise the fold over the one nidrange it
accepts. -/
theorem cfsIpMinMax_cases {nidlist : List Nidrange} {mm : UInt32 × UInt32} (h : cfsIpMinMax nidlist = .ok mm) :
    nidlist = [] ∧ mm = (0, 0) ∨ (∃ nr nrs, nidlist = nr :: nrs ∧ nr.nrAll = true ∧ mm = (0, 0xffffffff)) ∨
      ∃ nr, nidlist = [nr] ∧ nr.nrAll = false ∧ ipMinMaxArs nr.nrAddrranges (0, 0) = .ok mm := by
  unfold cfsIpMinMax at h
  match nidlist with
  | [] =>
    cases h
    exact .inl ⟨rfl, rfl⟩
  | nr :: nrs =>
    rw [ipMinMaxNrs, if_neg (Nat.lt_irrefl 0)] at h
    cases hall : nr.nrAll with
    | true =>
      rw [hall, if_pos rfl] at h
      cases h
      exact .inr (.inl ⟨nr, nrs, rfl, hall, rfl⟩)
    | false =>
      rw [hall, if_neg Bool.false_ne_true] at h
      obtain ⟨mm', hars, hrest⟩ := Except.bind_eq_ok.mp h
      cases nrs with
      | nil =>
        cases hrest
        exact .inr (.inr ⟨nr, rfl, hall, hars⟩)
      | cons nr' nrs =>
        -- a second nidrange is refused
        rw [ipMinMaxNrs, if_pos (Nat.zero_lt_one)] at hrest
        cases hrest

/-- An IP nidlist covers an address: a nidrange `*` every address, another
those one of its address ranges matches. -/
def IpCovers (nidlist : List Nidrange) (addr : UInt32) : Prop :=
  ∃ nr ∈ nidlist, nr.nrAll = true ∨ ∃ ar ∈ nr.nrAddrranges, cfsIpAddrMatch addr ar.arNumaddrRanges = some true

theorem le_allOnes (addr : UInt32) : addr ≤ 0xffffffff := by
  rw [UInt32.le_iff_toNat_le]
  exact Nat.le_of_lt_succ addr.toNat_lt

/-- For a nidlist of byte-octet ranges none of which holds `0.0.0.0`, the
least and the greatest address `cfs_ip_min_max` returns bound every address
the nidlist covers, and are covered themselves once it has a nidrange `*` or
one with address ranges. -/
theorem cfs_ip_min_max_tight {nidlist : List Nidrange}
    (hoct : ∀ nr ∈ nidlist, ∀ ar ∈ nr.nrAddrranges, ByteOctets ar.arNumaddrRanges)
    (hzero : ∀ nr ∈ nidlist, ∀ ar ∈ nr.nrAddrranges, cfsIpAddrMatch 0 ar.arNumaddrRanges ≠ some true)
    {mn mx : UInt32} (hok : cfsIpMinMax nidlist = .ok (mn, mx)) :
    (∀ addr, IpCovers nidlist addr → mn ≤ addr ∧ addr ≤ mx) ∧
      ((∃ nr ∈ nidlist, nr.nrAll = true ∨ nr.nrAddrranges ≠ []) → IpCovers nidlist mn ∧ IpCovers nidlist mx) := by
  rcases cfsIpMinMax_cases hok with ⟨rfl, -⟩ | ⟨nr, nrs, rfl, hall, hmm⟩ | ⟨nr, rfl, hall, hars⟩
  · -- no nidrange covers nothing
    exact ⟨fun _ ⟨_, h, _⟩ => absurd h List.not_mem_nil, fun ⟨_, h, _⟩ => absurd h List.not_mem_nil⟩
  · -- `*`: every address
    obtain ⟨rfl, rfl⟩ := Prod.mk.inj hmm
    have hcov : ∀ addr, IpCovers (nr :: nrs) addr := fun _ => ⟨nr, List.mem_cons_self .., .inl hall⟩
    exact ⟨fun addr _ => ⟨UInt32.zero_le, le_allOnes addr⟩, fun _ => ⟨hcov _, hcov _⟩⟩
  · -- one nidrange: the fold's bounds
    have hmem : nr ∈ [nr] := List.mem_singleton_self _
    have hnz : ∀ ar ∈ nr.nrAddrranges, ∀ a b, cfsIpArMinMax ar = .ok (a, b) → a ≠ 0 := by
      intro ar har a b h ha
      subst ha
      exact hzero nr hmem ar har ((cfsIpAddrMatch_iff_of_minMax (hoct nr hmem ar har) h 0).2
        ⟨UInt32.le_refl _, UInt32.zero_le⟩)
    have hinv := ipMinMaxArs_bounds nr.nrAddrranges [] (0, 0) (mn, mx) (.inl ⟨rfl, rfl⟩) hnz hars
    rw [List.nil_append] at hinv
    refine ⟨fun addr ⟨nr', hnr', hcov⟩ => ?_, fun ⟨nr', hnr', hsome⟩ => ?_⟩
    · rw [List.mem_singleton.mp hnr', hall] at hcov
      obtain ⟨ar, har, hmatch⟩ := hcov.resolve_left Bool.false_ne_true
      rcases hinv with ⟨hnil, -⟩ | ⟨-, -, -, hle⟩
      · exact absurd (hnil ▸ har) List.not_mem_nil
      obtain ⟨a, b, hr, hmn, hbx⟩ := hle ar har
      obtain ⟨hlo, hhi⟩ := (cfsIpAddrMatch_iff_of_minMax (hoct nr hmem ar har) hr addr).1 hmatch
      exact ⟨UInt32.le_trans hmn hlo, UInt32.le_trans hhi hbx⟩
    · rw [List.mem_singleton.mp hnr', hall] at hsome
      have hne : nr.nrAddrranges ≠ [] := hsome.resolve_left Bool.false_ne_true
      rcases hinv with ⟨hnil, -⟩ | ⟨-, ⟨arₘ, hₘ, b, hb⟩, ⟨arₓ, hₓ, a, ha⟩, -⟩
      · exact absurd hnil hne
      refine ⟨⟨nr, hmem, .inr ⟨arₘ, hₘ, ?_⟩⟩, ⟨nr, hmem, .inr ⟨arₓ, hₓ, ?_⟩⟩⟩
      · exact (cfsIpAddrMatch_iff_of_minMax (hoct nr hmem arₘ hₘ) hb mn).2
          ⟨UInt32.le_refl _, cfsIpArMinMax_le (hoct nr hmem arₘ hₘ) hb⟩
      · exact (cfsIpAddrMatch_iff_of_minMax (hoct nr hmem arₓ hₓ) ha mx).2
          ⟨cfsIpArMinMax_le (hoct nr hmem arₓ hₓ) ha, UInt32.le_refl _⟩

/-- `10.0.0.[1-5]@tcp` and `10.0.1.[7-9]@tcp`: one nidrange, two address
ranges. -/
def twoRangesOnTcp : List Nidrange :=
  [⟨[⟨[⟨[⟨10, 10, 1⟩]⟩, ⟨[⟨0, 0, 1⟩]⟩, ⟨[⟨0, 0, 1⟩]⟩, ⟨[⟨1, 5, 1⟩]⟩]⟩,
     ⟨[⟨[⟨10, 10, 1⟩]⟩, ⟨[⟨0, 0, 1⟩]⟩, ⟨[⟨1, 1, 1⟩]⟩, ⟨[⟨7, 9, 1⟩]⟩]⟩], false,
    ⟨sockLnd, ['t', 'c', 'p'], .ip, .ip, .ip⟩, 0⟩]

/-- The two ranges run from `10.0.0.1` to `10.0.1.9`. -/
theorem cfs_ip_min_max_tight_two_ranges :
    (∀ nr ∈ twoRangesOnTcp, ∀ ar ∈ nr.nrAddrranges, ByteOctets ar.arNumaddrRanges) ∧
      (∀ nr ∈ twoRangesOnTcp, ∀ ar ∈ nr.nrAddrranges, cfsIpAddrMatch 0 ar.arNumaddrRanges ≠ some true) ∧
      cfsIpMinMax twoRangesOnTcp = .ok (0x0A000001, 0x0A000109) ∧
      (∀ addr, IpCovers twoRangesOnTcp addr → 0x0A000001 ≤ addr ∧ addr ≤ 0x0A000109) ∧
      ((∃ nr ∈ twoRangesOnTcp, nr.nrAll = true ∨ nr.nrAddrranges ≠ []) →
        IpCovers twoRangesOnTcp 0x0A000001 ∧ IpCovers twoRangesOnTcp 0x0A000109) :=
  ⟨by decide, by decide, by decide, cfs_ip_min_max_tight (by decide) (by decide) (by decide)⟩

/-! ## Numeric LNDs -/

/-- The least address of the loop over an expression list's ranges is the
one it started with or the low end of one of them. -/
theorem numArExprsLoop_min : ∀ (res : List CfsRangeExpr) (n : Nat) (mm r : Nat × Nat),
    numArExprsLoop res n mm = .ok r → r.1 = mm.1 ∨ ∃ e ∈ res, r.1 = e.reLo
  | [], _, _, _, h => by
    cases h
    exact .inl rfl
  | e :: res, n, (m, M), r, h => by
    rw [numArExprsLoop] at h
    by_cases hn : n > 0
    · rw [if_pos hn] at h
      cases h
    rw [if_neg hn] at h
    by_cases hlt : e.reLo > e.reHi
    · rw [if_pos hlt] at h
      cases h
    rw [if_neg hlt] at h
    rcases numArExprsLoop_min res (n + 1) _ r h with h' | ⟨e', he', h'⟩
    · -- the least address after this range: its low end, or the one held
      rw [h']
      by_cases hm : e.reLo < m || m = 0
      · rw [if_pos hm]
        exact .inr ⟨e, List.mem_cons_self .., rfl⟩
      · rw [if_neg hm]
        exact .inl rfl
    · exact .inr ⟨e', List.mem_cons_of_mem _ he', h'⟩

theorem numArListsLoop_min : ∀ (els : List CfsExprList) (mm r : Nat × Nat),
    numArListsLoop els mm = .ok r → r.1 = mm.1 ∨ ∃ el ∈ els, ∃ e ∈ el.elExprs, r.1 = e.reLo
  | [], _, _, h => by
    cases h
    exact .inl rfl
  | el :: els, mm, r, h => by
    obtain ⟨mm', hel, hrest⟩ := Except.bind_eq_ok.mp h
    rcases numArListsLoop_min els mm' r hrest with h' | ⟨el', hel', e, he, h'⟩
    · rcases numArExprsLoop_min el.elExprs 0 mm mm' hel with h'' | ⟨e, he, h''⟩
      · exact .inl (h'.trans h'')
      · exact .inr ⟨el, List.mem_cons_self .., e, he, h'.trans h''⟩
    · exact .inr ⟨el', List.mem_cons_of_mem _ hel', e, he, h'⟩

/-- The least address `cfs_num_ar_min_max` returns is `0` or the low end of
one of the ranges. -/
theorem cfsNumArMinMax_min {ar : Addrrange} {a b : UInt32} (h : cfsNumArMinMax ar = .ok (a, b)) :
    a = 0 ∨ ∃ el ∈ ar.arNumaddrRanges, ∃ e ∈ el.elExprs, a = UInt32.ofNat e.reLo := by
  obtain ⟨r, hr, hab⟩ := Except.map_eq_ok.mp h
  obtain ⟨rfl, -⟩ := Prod.mk.inj hab
  rcases numArListsLoop_min _ _ r hr with h' | ⟨el, hel, e, he, h'⟩
  · exact .inl (by rw [h']; rfl)
  · exact .inr ⟨el, hel, e, he, by rw [h']⟩

/-- The greatest address of the fold of `cfs_num_min_max` over address
ranges is the one it started with, or the least address of one of them. -/
theorem numMinMaxArs_max : ∀ (ars : List Addrrange) (mm res : UInt32 × UInt32), numMinMaxArs ars mm = .ok res →
    res.2 = mm.2 ∨ ∃ ar ∈ ars, ∃ b, cfsNumArMinMax ar = .ok (res.2, b)
  | [], _, _, h => by
    cases h
    exact .inl rfl
  | ar :: ars, (m, M), res, h => by
    obtain ⟨⟨a, b⟩, har, hrest⟩ := Except.bind_eq_ok.mp h
    rcases numMinMaxArs_max ars _ res hrest with h' | ⟨ar', hmem, b', hb'⟩
    · -- `max_addr = tmp_min_addr`
      rw [h']
      by_cases hb : b > M
      · rw [if_pos hb]
        exact .inr ⟨ar, List.mem_cons_self .., b, har⟩
      · rw [if_neg hb]
        exact .inl rfl
    · exact .inr ⟨ar', List.mem_cons_of_mem _ hmem, b', hb'⟩

theorem numMinMaxNrs_max : ∀ (nrs : List Nidrange) (count : Nat) (mm res : UInt32 × UInt32),
    numMinMaxNrs nrs count mm = .ok res →
      res.2 = mm.2 ∨ ∃ nr ∈ nrs, ∃ ar ∈ nr.nrAddrranges, ∃ b, cfsNumArMinMax ar = .ok (res.2, b)
  | [], _, _, _, h => by
    cases h
    exact .inl rfl
  | nr :: nrs, count, mm, res, h => by
    rw [numMinMaxNrs] at h
    by_cases hc : count > 0
    · rw [if_pos hc] at h
      cases h
    rw [if_neg hc] at h
    obtain ⟨mm', hars, hrest⟩ := Except.bind_eq_ok.mp h
    rcases numMinMaxNrs_max nrs count mm' res hrest with h' | ⟨nr', hnr', ar, har, b, hb⟩
    · rcases numMinMaxArs_max _ mm mm' hars with h'' | ⟨ar, har, b, hb⟩
      · exact .inl (h'.trans h'')
      · exact .inr ⟨nr, List.mem_cons_self .., ar, har, b, h' ▸ hb⟩
    · exact .inr ⟨nr', List.mem_cons_of_mem _ hnr', ar, har, b, hb⟩

/-- `cfs_num_min_max` reports as the greatest address `0` or the low end of
one of the nidlist's ranges, `tmp_min_addr` where `tmp_max_addr` was meant:
for `[1-5]` it reports `1`. -/
theorem cfs_num_min_max_reports_low {nidlist : List Nidrange} {mn mx : UInt32}
    (hok : cfsNumMinMax nidlist = .ok (mn, mx)) :
    mx = 0 ∨ ∃ nr ∈ nidlist, ∃ ar ∈ nr.nrAddrranges, ∃ el ∈ ar.arNumaddrRanges, ∃ e ∈ el.elExprs,
      mx = UInt32.ofNat e.reLo := by
  rcases numMinMaxNrs_max nidlist 0 (0, 0) (mn, mx) hok with h | ⟨nr, hnr, ar, har, b, hb⟩
  · exact .inl h
  · rcases cfsNumArMinMax_min hb with h | ⟨el, hel, e, he, h⟩
    · exact .inl h
    · exact .inr ⟨nr, hnr, ar, har, el, hel, e, he, h⟩

/-- `[1-5]@gni2`. -/
def gniOneToFive : List Nidrange :=
  [⟨[⟨[⟨[⟨1, 5, 1⟩]⟩]⟩], false, ⟨gniLnd, ['g', 'n', 'i'], .decnum, .num, .num⟩, 2⟩]

/-- For `[1-5]` the greatest address reported is `1`, the low end. -/
theorem cfs_num_min_max_reports_low_gni :
    cfsNumMinMax gniOneToFive = .ok (1, 1) ∧
      ((1 : UInt32) = 0 ∨ ∃ nr ∈ gniOneToFive, ∃ ar ∈ nr.nrAddrranges, ∃ el ∈ ar.arNumaddrRanges,
        ∃ e ∈ el.elExprs, (1 : UInt32) = UInt32.ofNat e.reLo) := by
  have hok : cfsNumMinMax gniOneToFive = .ok (1, 1) := by decide
  exact ⟨hok, cfs_num_min_max_reports_low hok⟩

end Lustre.NidStrings
