import Mathlib
import Lustre.Quota.Qunit

/-! # The unit stays on the lattice of the least unit

The units `qmt_adjust_qunit` produces are the least unit times a power of
4 (`OnLattice`), when the unit it starts from is, the pool's soft least
unit is, and no 64-bit sum or product of the computation wraps. The loops
are proved by their run lemmas: `growQunit_spec` keeps a unit that leaves
room for half a unit per slave, and `shrinkQunit_spec` stops at the least
unit or at such a unit. `qunitUncapped_spec` and `qunitFor_spec` put them
together for one limit, and `qmt_adjust_qunit_on_lattice` reads the result
off the entry. Over the block soft limit with no hard limit,
`qmt_calc_softlimit` gives the limit 0: the unit is then the soft least
unit, however much is granted.
-/

namespace Lustre.Quota

/-- The units reachable from the least unit `least` by factors of 4. -/
def OnLattice (least q : Nat) : Prop := ∃ k, q = least * 4 ^ k

namespace OnLattice

theorem refl (least : Nat) : OnLattice least least := ⟨0, by rw [Nat.pow_zero, Nat.mul_one]⟩

theorem mul_four {least q : Nat} (h : OnLattice least q) : OnLattice least (q * 4) := by
  obtain ⟨k, rfl⟩ := h
  exact ⟨k + 1, by rw [Nat.pow_succ, Nat.mul_assoc]⟩

theorem le {least q : Nat} (h : OnLattice least q) : least ≤ q := by
  obtain ⟨k, rfl⟩ := h
  exact Nat.le_mul_of_pos_right _ (Nat.pow_pos (by decide))

end OnLattice

/-- A unit on the lattice that leaves no room for half a unit per slave
over what is granted, when the limit is not above it, is the least unit. -/
theorem eq_least_of_half_le {least slvCnt granted limit q : Nat} (hleast : 0 < least) (hs : 0 < slvCnt)
    (hq : OnLattice least q) (hroom : granted + slvCnt * q / 2 ≤ limit) (hlimit : limit ≤ granted) :
    q = least := by
  have hge := hq.le
  have hsq : q ≤ slvCnt * q := Nat.le_mul_of_pos_left q hs
  omega

section Grow

variable {least limit granted slvCnt : Nat}

/-- The grow loop, from a unit on the lattice whose test does not wrap,
while four times the limit fits in 64 bits: the unit stays on the lattice
and only grows; a unit it grew to leaves room for half a unit per slave;
and with the limit not above what is granted it does not grow at all. -/
theorem growQunit_spec (hs : 0 < slvCnt) (hL : 4 * limit < 2 ^ 64) :
    ∀ fuel q, 0 < q → granted + 6 * q * slvCnt < 2 ^ 64 → OnLattice least q →
      OnLattice least (growQunit limit granted slvCnt fuel q) ∧ q ≤ growQunit limit granted slvCnt fuel q ∧
        (growQunit limit granted slvCnt fuel q = q ∨
          granted + slvCnt * growQunit limit granted slvCnt fuel q / 2 ≤ limit) ∧
        (limit ≤ granted → growQunit limit granted slvCnt fuel q = q)
  | 0, q, _, _, hlat => ⟨hlat, Nat.le_refl q, .inl rfl, fun _ => rfl⟩
  | fuel + 1, q, hpos, hwrap, hlat => by
    unfold growQunit
    -- the products of the loop, in terms of `q * slvCnt`
    have hqs : q ≤ q * slvCnt := Nat.le_mul_of_pos_right q hs
    have h6 : 6 * q * slvCnt = 6 * (q * slvCnt) := by ring
    split_ifs with hgo
    · have hroom : granted + 6 * q * slvCnt ≤ limit := by
        rw [← Nat.mod_eq_of_lt hwrap]
        exact hgo.2
      have hq4 : q * 4 % 2 ^ 64 = q * 4 := Nat.mod_eq_of_lt (by omega)
      -- the next test does not wrap: it is at most four times the limit
      have h24 : 6 * (q * 4) * slvCnt = 24 * (q * slvCnt) := by ring
      have hwrap' : granted + 6 * (q * 4) * slvCnt < 2 ^ 64 := by omega
      rw [hq4]
      obtain ⟨hlat', hle, hgrew, -⟩ := growQunit_spec hs hL fuel (q * 4) (by omega) hwrap' hlat.mul_four
      refine ⟨hlat', by omega, .inr ?_, fun hlimit => absurd hroom (by omega)⟩
      rcases hgrew with hr | hr
      · -- one turn: half of four units per slave is under the room left
        have h2 : slvCnt * (q * 4) / 2 = 2 * (q * slvCnt) := by
          rw [show slvCnt * (q * 4) = 2 * (2 * (q * slvCnt)) by ring]
          omega
        rw [hr, h2]
        omega
      · exact hr
    · exact ⟨hlat, Nat.le_refl q, .inl rfl, fun _ => rfl⟩

end Grow

section Shrink

variable {least limit granted slvCnt : Nat}

/-- The shrink loop, from the least unit times `4 ^ k` with `k` within its
fuel and a test that does not wrap: the unit stays on the lattice, only
shrinks, and ends at the least unit or at one that leaves room for half a
unit per slave. -/
theorem shrinkQunit_spec (hleast : 0 < least) :
    ∀ fuel k, k ≤ fuel → granted + slvCnt * (least * 4 ^ k) < 2 ^ 64 →
      OnLattice least (shrinkQunit least limit granted slvCnt fuel (least * 4 ^ k)) ∧
        shrinkQunit least limit granted slvCnt fuel (least * 4 ^ k) ≤ least * 4 ^ k ∧
        (shrinkQunit least limit granted slvCnt fuel (least * 4 ^ k) = least ∨
          granted + slvCnt * shrinkQunit least limit granted slvCnt fuel (least * 4 ^ k) / 2 ≤ limit)
  | 0, k, hk, _ => by
    obtain rfl : k = 0 := Nat.le_zero.mp hk
    rw [shrinkQunit, Nat.pow_zero, Nat.mul_one]
    exact ⟨.refl least, Nat.le_refl least, .inl rfl⟩
  | fuel + 1, k, hk, hwrap => by
    unfold shrinkQunit
    have hprod : slvCnt * (least * 4 ^ k) % 2 ^ 64 = slvCnt * (least * 4 ^ k) := Nat.mod_eq_of_lt (by omega)
    have hsum : (granted + slvCnt * (least * 4 ^ k) / 2) % 2 ^ 64 = granted + slvCnt * (least * 4 ^ k) / 2 :=
      Nat.mod_eq_of_lt (by omega)
    rw [hprod, hsum]
    split_ifs with hgo
    · -- above the least unit, so at least one factor of 4 to take off
      obtain ⟨k, rfl⟩ : ∃ k', k = k' + 1 := Nat.exists_eq_add_one_of_ne_zero (by
        rintro rfl
        simp at hgo)
      have hdiv : least * 4 ^ (k + 1) / 4 = least * 4 ^ k := by
        rw [Nat.pow_succ, ← Nat.mul_assoc, Nat.mul_div_cancel _ (by decide)]
      have hmono : least * 4 ^ k ≤ least * 4 ^ (k + 1) :=
        Nat.mul_le_mul_left _ (Nat.pow_le_pow_right (by decide) (Nat.le_succ k))
      have hwrap' : granted + slvCnt * (least * 4 ^ k) < 2 ^ 64 :=
        lt_of_le_of_lt (Nat.add_le_add_left (Nat.mul_le_mul_left _ hmono) _) hwrap
      rw [hdiv]
      obtain ⟨hlat, hle, hend⟩ := shrinkQunit_spec hleast fuel k (by omega) hwrap'
      exact ⟨hlat, hle.trans hmono, hend⟩
    · -- the loop stops: at the least unit, or with room for half a unit
      refine ⟨⟨k, rfl⟩, Nat.le_refl _, ?_⟩
      have hge : least ≤ least * 4 ^ k := (OnLattice.le ⟨k, rfl⟩)
      by_cases hlt : least < least * 4 ^ k
      · exact .inr (by omega)
      · exact .inl (by omega)

/-- A unit on the lattice that fits in 64 bits is at most 31 factors of 4
above the least unit, so 32 turns of the shrink loop reach the least one. -/
theorem exponent_lt_32 {k : Nat} (hleast : 0 < least) (h : least * 4 ^ k < 2 ^ 64) : k < 32 := by
  have hpow : 4 ^ k < 4 ^ 32 := by
    rw [four_pow_32]
    exact lt_of_le_of_lt (Nat.le_mul_of_pos_left _ hleast) h
  exact (Nat.pow_lt_pow_iff_right (by decide)).mp hpow

end Shrink

section Unit

variable {pool : QmtPoolInfo} {lqe : LquotaEntry} {slvCnt limit : Nat}

theorem qunitStart_onLattice (hq0 : lqe.lqeQunit = 0 ∨ OnLattice pool.qpiLeastQunit lqe.lqeQunit) :
    OnLattice pool.qpiLeastQunit (qunitStart pool lqe) := by
  unfold qunitStart
  split_ifs with h
  · exact .refl _
  · exact hq0.resolve_left h

/-- The unit computed for one limit, before the cap: on the lattice, the
least unit or one with room for half a unit per slave, and the least unit
when nothing is left under the limit. -/
theorem qunitUncapped_spec (hleast : 0 < pool.qpiLeastQunit) (hs : 0 < slvCnt)
    (hq0 : OnLattice pool.qpiLeastQunit (qunitStart pool lqe))
    (hwrap : lqe.lqeGranted + 6 * qunitStart pool lqe * slvCnt < 2 ^ 64) (hL : 4 * limit < 2 ^ 64) :
    OnLattice pool.qpiLeastQunit (qunitUncapped pool slvCnt lqe limit) ∧
      (qunitUncapped pool slvCnt lqe limit = pool.qpiLeastQunit ∨
        lqe.lqeGranted + slvCnt * qunitUncapped pool slvCnt lqe limit / 2 ≤ limit) ∧
      (limit ≤ lqe.lqeGranted → qunitUncapped pool slvCnt lqe limit = pool.qpiLeastQunit) := by
  have hpos : 0 < qunitStart pool lqe := lt_of_lt_of_le hleast hq0.le
  have hqs : qunitStart pool lqe ≤ slvCnt * qunitStart pool lqe := Nat.le_mul_of_pos_left _ hs
  have h6 : 6 * qunitStart pool lqe * slvCnt = 6 * (slvCnt * qunitStart pool lqe) := by ring
  -- the branch test does not wrap
  have hprod : slvCnt * qunitStart pool lqe % 2 ^ 64 = slvCnt * qunitStart pool lqe := Nat.mod_eq_of_lt (by omega)
  have hsum : (lqe.lqeGranted + slvCnt * qunitStart pool lqe / 2) % 2 ^ 64 =
      lqe.lqeGranted + slvCnt * qunitStart pool lqe / 2 := Nat.mod_eq_of_lt (by omega)
  unfold qunitUncapped
  simp only [hprod, hsum]
  split_ifs with hfits hzero
  · -- the grow loop ends at or above its start, never at 0
    have hge := (growQunit_spec hs hL 32 _ hpos hwrap hq0).2.1
    omega
  · obtain ⟨hlat, -, hend, hstay⟩ := growQunit_spec hs hL 32 _ hpos hwrap hq0
    -- a unit the loop kept is the one the branch test let through
    have hstart : qunitStart pool lqe = pool.qpiLeastQunit ∨
        lqe.lqeGranted + slvCnt * qunitStart pool lqe / 2 ≤ limit := hfits
    refine ⟨hlat, ?_, fun hlimit => ?_⟩
    · rcases hend with hr | hr
      · rw [hr]
        exact hstart
      · exact .inr hr
    · rw [hstay hlimit]
      rcases hstart with h | h
      · exact h
      · exact eq_least_of_half_le hleast hs hq0 h hlimit
  · -- the shrink loop runs from `least * 4 ^ k` with `k < 32`
    obtain ⟨k, hk⟩ := hq0
    have hk32 : k < 32 := exponent_lt_32 hleast (by rw [← hk]; omega)
    rw [hk] at hwrap ⊢
    have hwrap' : lqe.lqeGranted + slvCnt * (pool.qpiLeastQunit * 4 ^ k) < 2 ^ 64 := by
      have h6' : 6 * (pool.qpiLeastQunit * 4 ^ k) * slvCnt = 6 * (slvCnt * (pool.qpiLeastQunit * 4 ^ k)) := by ring
      omega
    obtain ⟨hlat, -, hend⟩ := shrinkQunit_spec hleast 32 k (by omega) hwrap'
    refine ⟨hlat, hend, fun hlimit => ?_⟩
    rcases hend with h | h
    · exact h
    · exact eq_least_of_half_le hleast hs hlat h hlimit

/-- The unit computed for one limit and capped by `qunit2` (0 or on the
lattice): the uncapped facts still hold, and the cap is kept. -/
theorem qunitFor_spec {qunit2 : Nat} (hleast : 0 < pool.qpiLeastQunit) (hs : 0 < slvCnt)
    (hq0 : OnLattice pool.qpiLeastQunit (qunitStart pool lqe))
    (hwrap : lqe.lqeGranted + 6 * qunitStart pool lqe * slvCnt < 2 ^ 64) (hL : 4 * limit < 2 ^ 64)
    (hq2 : qunit2 = 0 ∨ OnLattice pool.qpiLeastQunit qunit2) :
    OnLattice pool.qpiLeastQunit (qunitFor pool slvCnt lqe limit qunit2) ∧
      (qunitFor pool slvCnt lqe limit qunit2 = pool.qpiLeastQunit ∨
        lqe.lqeGranted + slvCnt * qunitFor pool slvCnt lqe limit qunit2 / 2 ≤ limit) ∧
      (qunit2 ≠ 0 → qunitFor pool slvCnt lqe limit qunit2 ≤ qunit2) ∧
      (limit ≤ lqe.lqeGranted → qunitFor pool slvCnt lqe limit qunit2 = pool.qpiLeastQunit) := by
  obtain ⟨hlat, hend, hstay⟩ := qunitUncapped_spec hleast hs hq0 hwrap hL
  simp only [qunitFor]
  split_ifs with hcap
  · -- capped: the cap is on the lattice and below a unit that had room
    have hcapLat := hq2.resolve_left hcap.1
    have hroom : lqe.lqeGranted + slvCnt * qunitUncapped pool slvCnt lqe limit / 2 ≤ limit :=
      hend.resolve_left (fun h => absurd hcap.2 (by rw [h]; exact Nat.not_lt.mpr hcapLat.le))
    have hhalf : slvCnt * qunit2 / 2 ≤ slvCnt * qunitUncapped pool slvCnt lqe limit / 2 :=
      Nat.div_le_div_right (Nat.mul_le_mul_left _ hcap.2.le)
    refine ⟨hcapLat, .inr (by omega), fun _ => Nat.le_refl _, fun hlimit => ?_⟩
    rw [hstay hlimit] at hcap
    exact absurd hcap.2 (Nat.not_lt.mpr hcapLat.le)
  · refine ⟨hlat, hend, fun h2 => ?_, hstay⟩
    simp only [ne_eq, not_and, Nat.not_lt] at hcap
    exact hcap h2

end Unit

/-- The limit `qmt_adjust_qunit` computes the unit from: what
`qmt_calc_softlimit` gives when a soft limit is set, the hard limit
otherwise. -/
def effectiveLimit (pool : QmtPoolInfo) (lqe : LquotaEntry) : Nat :=
  if lqe.lqeSoftlimit ≠ 0 then (qmtCalcSoftlimit pool lqe).1 else lqe.lqeHardlimit

/-- The entry is over its block soft limit, as `qmt_calc_softlimit` finds. -/
def overSoft (pool : QmtPoolInfo) (lqe : LquotaEntry) : Bool :=
  lqe.lqeSoftlimit ≠ 0 && (qmtCalcSoftlimit pool lqe).2

section Adjust

variable {pool : QmtPoolInfo} {lqe : LquotaEntry} {slvCnt : Nat}

/-- `qmt_calc_softlimit` gives the limit 0 only over the soft limit. -/
theorem qmtCalcSoftlimit_over_of_zero (hsoft : lqe.lqeSoftlimit ≠ 0) (hzero : (qmtCalcSoftlimit pool lqe).1 = 0) :
    (qmtCalcSoftlimit pool lqe).2 = true := by
  unfold qmtCalcSoftlimit at hzero ⊢
  split_ifs at hzero ⊢ <;> simp_all

/-- With a limit set, the effective limit is 0 only over the soft limit. -/
theorem overSoft_of_effectiveLimit_eq_zero (hlimit : lqe.lqeSoftlimit ≠ 0 ∨ lqe.lqeHardlimit ≠ 0)
    (hzero : effectiveLimit pool lqe = 0) : overSoft pool lqe = true := by
  unfold effectiveLimit at hzero
  unfold overSoft
  split_ifs at hzero with hsoft
  · simp [hsoft, qmtCalcSoftlimit_over_of_zero hsoft hzero]
  · exact absurd hzero (hlimit.resolve_left hsoft)

@[simp] theorem qunitDone_qunit (seconds : Int) (qunit : Nat) :
    (qunitDone pool seconds lqe qunit).2.lqeQunit = qunit := by
  unfold qunitDone
  by_cases h : lqe.lqeQunit = qunit
  · rw [if_pos h]
    exact h
  · rw [if_neg h]

/-- For an enforced entry of a user, with slaves and a limit set, the unit
`qmt_adjust_qunit` stores is the one computed from the effective limit,
capped by the soft least unit over the soft limit, or the soft least unit
itself when the effective limit is 0. -/
theorem qmtAdjustQunit_qunit (seconds : Int) (henf : lqe.lqeEnforced = true) (huid : lqe.lqeIdUid ≠ 0)
    (hlimit : lqe.lqeSoftlimit ≠ 0 ∨ lqe.lqeHardlimit ≠ 0) (hs : 0 < slvCnt) :
    (qmtAdjustQunit pool slvCnt seconds lqe).2.lqeQunit =
      if effectiveLimit pool lqe = 0 then pool.qpiSoftLeastQunit
      else qunitFor pool slvCnt lqe (effectiveLimit pool lqe)
        (if overSoft pool lqe then pool.qpiSoftLeastQunit else 0) := by
  unfold qmtAdjustQunit effectiveLimit overSoft
  by_cases hsoft : lqe.lqeSoftlimit = 0
  · have hhard := hlimit.resolve_left (not_not.mpr hsoft)
    simp [henf, huid, hs.ne', hsoft, hhard]
  · -- the limit and the flag come from one call of `qmt_calc_softlimit`
    have hover : (qmtCalcSoftlimit pool lqe).1 = 0 → (qmtCalcSoftlimit pool lqe).2 = true :=
      qmtCalcSoftlimit_over_of_zero hsoft
    rcases hc : qmtCalcSoftlimit pool lqe with ⟨limit, isOver⟩
    rw [hc] at hover
    by_cases hzero : limit = 0
    · have hover' : isOver = true := hover hzero
      simp [henf, huid, hs.ne', hsoft, hzero, hover']
    · simp [henf, huid, hs.ne', hsoft, hzero]

end Adjust

/-- `qmt_adjust_qunit` on an enforced entry of a user with a limit set,
with slaves, a least unit and a soft least unit on its lattice, and a
start unit that is 0 or on the lattice, when no sum or product of the
computation wraps: the unit it stores is on the lattice; with an effective
limit it is the least unit or leaves room for half a unit per slave, and
with the effective limit 0 (over the soft limit with no hard limit) it is
the soft least unit; over the soft limit it is at most the soft least unit;
and when nothing is left under the limit, not over the soft limit, it is
the least unit. -/
theorem qmt_adjust_qunit_on_lattice {pool : QmtPoolInfo} {lqe : LquotaEntry} {slvCnt : Nat} (seconds : Int)
    (hleast : 0 < pool.qpiLeastQunit) (hsoft : OnLattice pool.qpiLeastQunit pool.qpiSoftLeastQunit)
    (henf : lqe.lqeEnforced = true) (huid : lqe.lqeIdUid ≠ 0)
    (hlimit : lqe.lqeSoftlimit ≠ 0 ∨ lqe.lqeHardlimit ≠ 0) (hs : 0 < slvCnt)
    (hq0 : lqe.lqeQunit = 0 ∨ OnLattice pool.qpiLeastQunit lqe.lqeQunit)
    (hwrap : lqe.lqeGranted + 6 * qunitStart pool lqe * slvCnt < 2 ^ 64)
    (hL : 4 * effectiveLimit pool lqe < 2 ^ 64) :
    OnLattice pool.qpiLeastQunit (qmtAdjustQunit pool slvCnt seconds lqe).2.lqeQunit ∧
      (effectiveLimit pool lqe ≠ 0 →
        (qmtAdjustQunit pool slvCnt seconds lqe).2.lqeQunit = pool.qpiLeastQunit ∨
          lqe.lqeGranted + slvCnt * (qmtAdjustQunit pool slvCnt seconds lqe).2.lqeQunit / 2 ≤
            effectiveLimit pool lqe) ∧
      (effectiveLimit pool lqe = 0 → (qmtAdjustQunit pool slvCnt seconds lqe).2.lqeQunit = pool.qpiSoftLeastQunit) ∧
      (overSoft pool lqe = true → (qmtAdjustQunit pool slvCnt seconds lqe).2.lqeQunit ≤ pool.qpiSoftLeastQunit) ∧
      (effectiveLimit pool lqe ≤ lqe.lqeGranted → overSoft pool lqe = false →
        (qmtAdjustQunit pool slvCnt seconds lqe).2.lqeQunit = pool.qpiLeastQunit) := by
  rw [qmtAdjustQunit_qunit seconds henf huid hlimit hs]
  split_ifs with hzero hover
  · -- limit 0: the soft least unit, and the entry is over the soft limit
    have hover := overSoft_of_effectiveLimit_eq_zero hlimit hzero
    refine ⟨hsoft, fun h => absurd hzero h, fun _ => rfl, fun _ => Nat.le_refl _, fun _ h => ?_⟩
    rw [hover] at h
    cases h
  · -- over the soft limit: capped by the soft least unit
    obtain ⟨hlat, hend, hcap, -⟩ := qunitFor_spec hleast hs (qunitStart_onLattice hq0) hwrap hL (.inr hsoft)
    have hsoftPos : pool.qpiSoftLeastQunit ≠ 0 := Nat.pos_iff_ne_zero.mp (lt_of_lt_of_le hleast hsoft.le)
    refine ⟨hlat, fun _ => hend, fun h => absurd h hzero, fun _ => hcap hsoftPos, fun _ h => ?_⟩
    rw [hover] at h
    cases h
  · obtain ⟨hlat, hend, -, hstay⟩ := qunitFor_spec hleast hs (qunitStart_onLattice hq0) hwrap hL (.inl rfl)
    refine ⟨hlat, fun _ => hend, fun h => absurd h hzero, fun h => absurd h hover, fun h _ => hstay h⟩

/-- A block pool with a least unit of 1024 and a soft least unit of 4096. -/
def blockPool : QmtPoolInfo := ⟨.dt, 1024, 4096⟩

/-- An entry of user 1 with a hard limit of 2^20 and nothing granted yet. -/
def hardOnlyEntry : LquotaEntry := ⟨true, 1, 0, 1048576, 0, 0, 0, false, 0, 0⟩

theorem qmt_adjust_qunit_hard_only :
    OnLattice blockPool.qpiLeastQunit (qmtAdjustQunit blockPool 2 0 hardOnlyEntry).2.lqeQunit ∧
      (effectiveLimit blockPool hardOnlyEntry ≠ 0 →
        (qmtAdjustQunit blockPool 2 0 hardOnlyEntry).2.lqeQunit = blockPool.qpiLeastQunit ∨
          hardOnlyEntry.lqeGranted + 2 * (qmtAdjustQunit blockPool 2 0 hardOnlyEntry).2.lqeQunit / 2 ≤
            effectiveLimit blockPool hardOnlyEntry) ∧
      (effectiveLimit blockPool hardOnlyEntry = 0 →
        (qmtAdjustQunit blockPool 2 0 hardOnlyEntry).2.lqeQunit = blockPool.qpiSoftLeastQunit) ∧
      (overSoft blockPool hardOnlyEntry = true →
        (qmtAdjustQunit blockPool 2 0 hardOnlyEntry).2.lqeQunit ≤ blockPool.qpiSoftLeastQunit) ∧
      (effectiveLimit blockPool hardOnlyEntry ≤ hardOnlyEntry.lqeGranted → overSoft blockPool hardOnlyEntry = false →
        (qmtAdjustQunit blockPool 2 0 hardOnlyEntry).2.lqeQunit = blockPool.qpiLeastQunit) :=
  qmt_adjust_qunit_on_lattice 0 (by decide) ⟨1, rfl⟩ rfl (by decide) (by decide) (by decide) (.inl rfl)
    (by decide) (by decide)

/-- The same pool, and an entry of user 1 over its soft limit of 1 with no
hard limit. -/
def overSoftEntry : LquotaEntry := ⟨true, 1, 1, 0, 10000, 0, 0, false, 0, 0⟩

theorem qmt_adjust_qunit_over_soft_without_hard :
    effectiveLimit blockPool overSoftEntry = 0 ∧
      (qmtAdjustQunit blockPool 1 0 overSoftEntry).2.lqeQunit = 4096 ∧
      ¬ ((qmtAdjustQunit blockPool 1 0 overSoftEntry).2.lqeQunit = blockPool.qpiLeastQunit ∨
        overSoftEntry.lqeGranted + 1 * (qmtAdjustQunit blockPool 1 0 overSoftEntry).2.lqeQunit / 2 ≤
          effectiveLimit blockPool overSoftEntry) := by
  decide

end Lustre.Quota
