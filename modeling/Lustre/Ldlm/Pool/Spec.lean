import Mathlib
import Lustre.Ldlm.Pool
import Lustre.Lib.Run

/-! # The server lock pool's numbers stay in range

What the recalculation of a server pool guarantees, and where it stops
doing so.

* `ldlmPoolT2gsp_range`: for periods below `128` seconds the grant step is
  from `LDLM_POOL_MIN_GSP` to `LDLM_POOL_MAX_GSP` percent; from `128` on the
  shift is undefined.
* `ldlmPoolRecalcGrantPlan_eq`: while `L` and `G` times `LDLM_POOL_MAX_GSP`
  are `int`s, the plan is `G` plus the grant step of `L - G`, capped at
  `5L/4`.
* `ldlmPoolRecalcSlv_spec`: while `L + plan` is an `int`, the SLV stays in
  `[1, L * LDLM_POOL_MAX_AGE]`, grows when `G ≤ plan` and shrinks when
  `plan ≤ G`.
* `PoolInv.of_reachable`, `PoolInv.step`: from `ldlm_pool_init` with `LDLM_POOL_HOST_L * LDLM_POOL_MAX_GSP` an `int`, and periods below
  `128`, every state keeps these ranges and no step is undefined.
* `ldlm_srv_pool_recalc_undefined`: beyond them, a limit of `5 * 10^8`
  locks overflows `limit * 5` at the default period, `10^8` overflows the
  grant step at a period of `10` seconds, a period of `128` seconds shifts
  by `32`, and a limit of `2^31` reads as a negative `int` and drops the SLV
  to `1` although the plan is met.
-/

namespace Lustre.Ldlm

open CArith

/-! ## `int` arithmetic -/

theorem cInt_of_range {x : Int} (h1 : -2 ^ 31 ≤ x) (h2 : x < 2 ^ 31) : cInt x = some x := by
  rw [cInt, if_pos ⟨h1, h2⟩]

/-- A quotient by a hundred rounded toward zero keeps the sign and shrinks. -/
theorem tdiv_hundred_of_nonneg {x : Int} (hx : 0 ≤ x) : 0 ≤ x.tdiv 100 ∧ 100 * x.tdiv 100 ≤ x := by
  rw [Int.tdiv_eq_ediv_of_nonneg hx]
  omega

theorem tdiv_hundred_of_nonpos {x : Int} (hx : x ≤ 0) : x ≤ 100 * x.tdiv 100 ∧ x.tdiv 100 ≤ 0 := by
  have hneg := Int.neg_tdiv (-x) 100
  rw [neg_neg] at hneg
  rw [hneg, Int.tdiv_eq_ediv_of_nonneg (by omega)]
  omega

/-! ## The grant step -/

theorem ldlmPoolT2gsp_of_lt {t : Nat} (ht : t < 128) :
    ldlmPoolT2gsp t = some (30 - 29 / ((2 ^ (t / 4) : Nat) : Int)) := by
  have hshift : t >>> ldlmPoolGspStepShift = t / 4 := Nat.shiftRight_eq_div_pow t 2
  rw [ldlmPoolT2gsp, hshift, if_pos (by omega), Int.shiftRight_eq_div_pow]
  rfl

/-- Halving `29` some number of times leaves between `0` and `29`. -/
theorem halvings_range (k : Nat) : 0 ≤ 29 / ((2 ^ k : Nat) : Int) ∧ 29 / ((2 ^ k : Nat) : Int) ≤ 29 :=
  ⟨Int.ediv_nonneg (by decide) (Int.natCast_nonneg _), Int.ediv_le_self _ (by decide)⟩

theorem ldlmPoolT2gsp_range {t : Nat} (ht : t < 128) {g : Int} (hg : ldlmPoolT2gsp t = some g) :
    ldlmPoolMinGsp ≤ g ∧ g ≤ ldlmPoolMaxGsp := by
  rw [ldlmPoolT2gsp_of_lt ht, Option.some.injEq] at hg
  have := halvings_range (t / 4)
  rw [ldlmPoolMinGsp, ldlmPoolMaxGsp]
  omega

/-! ## The grant plan -/

section GrantPlan

variable {pl : LdlmPool}

/-- While `L` and `G` times `LDLM_POOL_MAX_GSP` are `int`s, the plan is `G`
plus the grant step of `L - G`, capped at `5L/4`. -/
theorem ldlmPoolRecalcGrantPlan_eq (hL : pl.plLimit.toNat * 30 < 2 ^ 31) (hG0 : 0 ≤ pl.plGranted)
    (hG : pl.plGranted * 30 < 2 ^ 31) {g : Int} (hg : ldlmPoolT2gsp (pl.plRecalcPeriod % 2 ^ 32).toNat = some g)
    (hg1 : 1 ≤ g) (hg30 : g ≤ 30) :
    ldlmPoolRecalcGrantPlan pl = some { pl with
      plGrantPlan := min (pl.plGranted + ((pl.plLimit.toNat - pl.plGranted) * g).tdiv 100)
        (pl.plLimit.toNat * 5 / 4) } := by
  obtain ⟨L, hLdef⟩ : ∃ L, pl.plLimit.toNat = L := ⟨_, rfl⟩
  obtain ⟨G, hGdef⟩ : ∃ G, pl.plGranted = G := ⟨_, rfl⟩
  rw [hLdef] at hL ⊢
  rw [hGdef] at hG0 hG ⊢
  have hlimit : narrowInt L = L := narrowInt_of_lt (by omega)
  -- the grant step of `L - G`, between the difference and thirty times it
  have hbounds : (0 ≤ (L : Int) - G → 0 ≤ ((L : Int) - G) * g ∧ ((L : Int) - G) * g ≤ ((L : Int) - G) * 30) ∧
      ((L : Int) - G ≤ 0 → ((L : Int) - G) * 30 ≤ ((L : Int) - G) * g ∧ ((L : Int) - G) * g ≤ 0) :=
    ⟨fun h => ⟨by nlinarith, by nlinarith⟩, fun h => ⟨by nlinarith, by nlinarith⟩⟩
  have hdiff : cInt ((L : Int) - G) = some ((L : Int) - G) := cInt_of_range (by omega) (by omega)
  have hstep : cInt (((L : Int) - G) * g) = some (((L : Int) - G) * g) := by
    rcases le_total 0 ((L : Int) - G) with h | h
    · exact cInt_of_range (by omega) (by omega)
    · exact cInt_of_range (by omega) (by omega)
  have hplan : cInt (G + (((L : Int) - G) * g).tdiv 100) = some (G + (((L : Int) - G) * g).tdiv 100) := by
    rcases le_total 0 ((L : Int) - G) with h | h
    · have := tdiv_hundred_of_nonneg (hbounds.1 h).1
      exact cInt_of_range (by omega) (by omega)
    · have := tdiv_hundred_of_nonpos (hbounds.2 h).2
      exact cInt_of_range (by omega) (by omega)
  have hfive : cInt ((L : Int) * 5) = some ((L : Int) * 5) := cInt_of_range (by omega) (by omega)
  rw [ldlmPoolRecalcGrantPlan]
  simp only [hLdef, hGdef, hlimit, hg, hdiff, hstep, hplan, hfive, Option.bind_eq_bind, Option.bind_some,
    Option.pure_def]
  rw [Int.shiftRight_eq_div_pow, show ((2 ^ 2 : Nat) : Int) = 4 from rfl]
  rcases le_or_gt (G + (((L : Int) - G) * g).tdiv 100) ((L : Int) * 5 / 4) with h | h
  · rw [if_neg (not_lt.2 h), min_eq_left h]
  · rw [if_pos h, min_eq_right h.le]

/-- Whatever `G` is, the plan is not negative. -/
theorem grantPlan_nonneg {L G g : Int} (hL : 0 ≤ L) (hG : 0 ≤ G) (hg1 : 1 ≤ g) (hg30 : g ≤ 30) :
    0 ≤ min (G + ((L - G) * g).tdiv 100) (L * 5 / 4) := by
  refine le_min ?_ (by omega)
  rcases le_total G L with h | h
  · have := (tdiv_hundred_of_nonneg (mul_nonneg (sub_nonneg.2 h) (by omega : (0 : Int) ≤ g))).1
    omega
  · -- more granted than the limit: the step takes at most 30% of the excess
    have hneg : (L - G) * g ≤ 0 := mul_nonpos_of_nonpos_of_nonneg (by omega) (by omega)
    have hbig : (L - G) * 30 ≤ (L - G) * g := mul_le_mul_of_nonpos_left hg30 (by omega)
    have := (tdiv_hundred_of_nonpos hneg).1
    omega

end GrantPlan

/-! ## The server lock volume -/

/-- `dru` by `LDLM_POOL_SLV_SHIFT` of a value well below `2^64`. -/
theorem dru_ten_eq {x : Nat} (hx : x + 1023 < 2 ^ 64) (roundUp : Bool) :
    dru x 10 roundUp = (x + if roundUp then 1023 else 0) / 1024 := by
  rw [dru, Nat.shiftRight_eq_div_pow, Nat.mod_eq_of_lt (by split_ifs <;> omega)]
  rfl

/-- `limit - (granted - grant_plan)` read back by `max_t(int, .., 1)`, when
the plan is met: the limit and what is left of the plan. -/
theorem grantUsage_of_nonpos {L : Nat} {d : Int} (hd : d ≤ 0) (h : (L : Int) - d < 2 ^ 31) :
    (max (narrowInt (((L : Int) - d) % 2 ^ 32).toNat) 1).toNat = ((L : Int) - d).toNat ∨ L = 0 := by
  rcases Nat.eq_zero_or_pos L with hL | hL
  · exact Or.inr hL
  · left
    have hmod : ((L : Int) - d) % 2 ^ 32 = (L : Int) - d := Int.emod_eq_of_lt (by omega) (by omega)
    rw [hmod, narrowInt_of_lt (by omega), Int.toNat_of_nonneg (by omega), max_eq_left (by omega)]

/-- When the plan is exceeded: at least one and at most the limit. -/
theorem grantUsage_of_nonneg {L : Nat} {d : Int} (hd : 0 ≤ d) (hd' : d < 2 ^ 31) (hL : 1 ≤ L) (hL' : L < 2 ^ 31) :
    1 ≤ (max (narrowInt (((L : Int) - d) % 2 ^ 32).toNat) 1).toNat ∧
      (max (narrowInt (((L : Int) - d) % 2 ^ 32).toNat) 1).toNat ≤ L := by
  rcases le_or_gt d L with h | h
  · -- what is left of the limit
    have hmod : ((L : Int) - d) % 2 ^ 32 = (L : Int) - d := Int.emod_eq_of_lt (by omega) (by omega)
    rw [hmod, narrowInt_of_lt (by omega), Int.toNat_of_nonneg (by omega)]
    omega
  · -- past the limit the unsigned difference wraps and reads as a negative `int`
    have hmod : ((L : Int) - d) % 2 ^ 32 = (L : Int) - d + 2 ^ 32 := by
      rw [Int.emod_eq_add_self_emod, Int.emod_eq_of_lt (by omega) (by omega)]
    have hneg := narrowInt_neg (x := ((L : Int) - d + 2 ^ 32).toNat) (by omega) (by omega)
    rw [hmod, max_eq_right (by omega)]
    omega

/-- The clamp to `[ldlm_pool_slv_min(L), ldlm_pool_slv_max(L)]`: in range,
and on the same side of an SLV in range as the value clamped. -/
theorem slvClamp_spec (L v : Nat) (hL : 1 ≤ L) :
    let c := if v > ldlmPoolSlvMax L then ldlmPoolSlvMax L else if v < ldlmPoolSlvMin L then ldlmPoolSlvMin L else v
    1 ≤ c ∧ c ≤ ldlmPoolSlvMax L ∧ (∀ s, s ≤ ldlmPoolSlvMax L → s ≤ v → s ≤ c) ∧ (∀ s, 1 ≤ s → v ≤ s → c ≤ s) := by
  have hM : 1 ≤ ldlmPoolSlvMax L := by
    rw [ldlmPoolSlvMax, ldlmPoolMaxAge, Nat.div_one]
    omega
  have hmin : ldlmPoolSlvMin L = 1 := rfl
  dsimp only
  rw [hmin]
  by_cases hhi : v > ldlmPoolSlvMax L
  · rw [if_pos hhi]
    exact ⟨hM, le_rfl, fun s h _ => h, fun s _ h => by omega⟩
  · rw [if_neg hhi]
    by_cases hlo : v < 1
    · rw [if_pos hlo]
      exact ⟨le_rfl, hM, fun s _ h => by omega, fun s h _ => h⟩
    · rw [if_neg hlo]
      exact ⟨by omega, by omega, fun s _ h => h, fun s _ h => h⟩

section Slv

variable {pl : LdlmPool}

/-- While `L + plan` is an `int`, the SLV stays in `[1, L * LDLM_POOL_MAX_AGE]`;
it does not fall while the plan is met and does not rise while it is
exceeded. -/
theorem ldlmPoolRecalcSlv_spec (hL1 : 1 ≤ pl.plLimit.toNat) (hG0 : 0 ≤ pl.plGranted) (hG : pl.plGranted < 2 ^ 31)
    (hP0 : 0 ≤ pl.plGrantPlan) (hLP : pl.plLimit.toNat + pl.plGrantPlan < 2 ^ 31)
    (hs1 : 1 ≤ pl.plServerLockVolume) (hsM : pl.plServerLockVolume ≤ ldlmPoolSlvMax pl.plLimit.toNat) :
    ∃ s', ldlmPoolRecalcSlv pl = some { pl with plServerLockVolume := s' } ∧
      1 ≤ s' ∧ s' ≤ ldlmPoolSlvMax pl.plLimit.toNat ∧
      (pl.plGranted ≤ pl.plGrantPlan → pl.plServerLockVolume ≤ s') ∧
      (pl.plGrantPlan ≤ pl.plGranted → s' ≤ pl.plServerLockVolume) := by
  obtain ⟨L, hLdef⟩ : ∃ L, pl.plLimit.toNat = L := ⟨_, rfl⟩
  obtain ⟨G, hGdef⟩ : ∃ G, pl.plGranted = G := ⟨_, rfl⟩
  obtain ⟨P, hPdef⟩ : ∃ P, pl.plGrantPlan = P := ⟨_, rfl⟩
  obtain ⟨s, hsdef⟩ : ∃ s, pl.plServerLockVolume = s := ⟨_, rfl⟩
  rw [hLdef] at hL1 hLP hsM ⊢
  rw [hGdef] at hG0 hG ⊢
  rw [hPdef] at hP0 hLP ⊢
  rw [hsdef] at hs1 hsM ⊢
  have hdiff : cInt (G - P) = some (G - P) := cInt_of_range (by omega) (by omega)
  simp only [ldlmPoolRecalcSlv, hLdef, hGdef, hPdef, hsdef, hdiff, Option.bind_eq_bind, Option.bind_some,
    if_neg (show L ≠ 0 by omega)]
  generalize hu : (max (narrowInt (((L : Int) - (G - P)) % 2 ^ 32).toNat) 1).toNat = u
  -- the usage: at least `L` while the plan is met, at most `L` while it is exceeded
  have hu_lt : u < 2 ^ 31 := by
    have := narrowInt_lt (((L : Int) - (G - P)) % 2 ^ 32).toNat
    omega
  have hu_ge : G ≤ P → L ≤ u := fun h => by
    rcases grantUsage_of_nonpos (L := L) (d := G - P) (by omega) (by omega) with h' | h'
    · omega
    · omega
  have hu_le : P ≤ G → u ≤ L := fun h => by
    have := grantUsage_of_nonneg (L := L) (d := G - P) (by omega) (by omega) hL1 (by omega)
    omega
  have hshift : (u <<< ldlmPoolSlvShift) % 2 ^ 64 = u * 1024 := by
    rw [Nat.shiftLeft_eq]
    exact Nat.mod_eq_of_lt (by rw [ldlmPoolSlvShift]; omega)
  rw [hshift]
  -- the factor, and the product below `2^64`
  have hfL : u * 1024 / L * L ≤ u * 1024 := Nat.div_mul_le_self _ _
  have hprod : s * (u * 1024 / L) ≤ 36000 * (u * 1024) := by
    have hsL : s ≤ L * 36000 := by rwa [ldlmPoolSlvMax, ldlmPoolMaxAge, Nat.div_one] at hsM
    calc s * (u * 1024 / L) ≤ L * 36000 * (u * 1024 / L) := Nat.mul_le_mul_right _ hsL
      _ = 36000 * (u * 1024 / L * L) := by ac_rfl
      _ ≤ 36000 * (u * 1024) := Nat.mul_le_mul_left _ hfL
  rw [Nat.mod_eq_of_lt (by omega), show ldlmPoolSlvShift = 10 from rfl, dru_ten_eq (by omega)]
  refine ⟨_, rfl, ?_⟩
  obtain ⟨hc1, hcM, hup, hdown⟩ := slvClamp_spec L ((s * (u * 1024 / L) +
    if decide ((G % 2 ^ 32).toNat < L) = true then 1023 else 0) / 1024) hL1
  refine ⟨hc1, hcM, fun h => hup s hsM ?_, fun h => hdown s hs1 ?_⟩
  · -- the plan is met: the factor is at least `1024`
    have hf : 1024 ≤ u * 1024 / L := (Nat.le_div_iff_mul_le (by omega)).2 (by have := hu_ge h; omega)
    have : s * 1024 ≤ s * (u * 1024 / L) := Nat.mul_le_mul_left _ hf
    split <;> omega
  · -- the plan is exceeded: the factor is at most `1024`, and rounding up does not reach `s + 1`
    have hf : u * 1024 / L ≤ 1024 := Nat.div_le_of_le_mul (by have := hu_le h; nlinarith)
    have : s * (u * 1024 / L) ≤ s * 1024 := Nat.mul_le_mul_left _ hf
    split <;> omega

end Slv

/-! ## The shrinker -/

/-- `ldlm_srv_pool_shrink` only lowers the SLV, and not below one. -/
theorem ldlmSrvPoolShrink_spec (pl : LdlmPool) (nr : Int) (hs1 : 1 ≤ pl.plServerLockVolume) :
    ∃ s', (ldlmSrvPoolShrink pl nr).2 = { pl with plServerLockVolume := s' } ∧
      1 ≤ s' ∧ s' ≤ pl.plServerLockVolume := by
  unfold ldlmSrvPoolShrink
  by_cases h0 : nr = 0
  · rw [if_pos h0]
    exact ⟨_, rfl, hs1, le_rfl⟩
  rw [if_neg h0]
  by_cases hG : pl.plGranted = 0
  · rw [if_pos hG]
    exact ⟨_, rfl, hs1, le_rfl⟩
  rw [if_neg hG]
  by_cases hlt : (nr % 2 ^ 64).toNat < pl.plServerLockVolume
  · -- at least one lock's worth is left
    rw [if_pos hlt]
    exact ⟨_, rfl, by omega, Nat.sub_le _ _⟩
  · rw [if_neg hlt]
    exact ⟨_, rfl, le_rfl, hs1⟩

/-! ## The pool over whole runs -/

/-- The ranges a server pool keeps while its arithmetic is defined. -/
structure PoolInv (pl : LdlmPool) : Prop where
  /-- A limit of at least one lock, thirty times which is an `int`. -/
  limit_pos : 1 ≤ pl.plLimit.toNat
  limit_lt : pl.plLimit.toNat * 30 < 2 ^ 31
  /-- A granted count thirty times which is an `int`. -/
  granted_nonneg : 0 ≤ pl.plGranted
  granted_lt : pl.plGranted * 30 < 2 ^ 31
  /-- A plan in `[0, 5L/4]`. -/
  plan_nonneg : 0 ≤ pl.plGrantPlan
  plan_le : pl.plGrantPlan ≤ pl.plLimit.toNat * 5 / 4
  /-- An SLV in `[1, L * LDLM_POOL_MAX_AGE]`. -/
  slv_pos : 1 ≤ pl.plServerLockVolume
  slv_le : pl.plServerLockVolume ≤ ldlmPoolSlvMax pl.plLimit.toNat
  /-- A period that `ldlm_pool_t2gsp` shifts by less than `32`. -/
  period_nonneg : 0 ≤ pl.plRecalcPeriod
  period_lt : pl.plRecalcPeriod < 128

/-- The operations that keep the pool in range: a grant while thirty times
the count stays an `int`, a release of a granted lock, and a period below
`128` seconds. -/
def PoolAllowed (pl : LdlmPool) : LdlmPoolOp → Prop
  | .add => (pl.plGranted + 1) * 30 < 2 ^ 31
  | .del => 0 < pl.plGranted
  | .setRecalcPeriod t => 0 ≤ t ∧ t < 128
  | .recalc _ _ => True
  | .shrink _ => True

/-- A pool just set up by `ldlm_pool_init`, with `LDLM_POOL_HOST_L` at least
one and thirty times it an `int`. -/
def PoolStart (pl : LdlmPool) : Prop :=
  ∃ hostL, 1 ≤ hostL ∧ hostL * 30 < 2 ^ 31 ∧ pl = ldlmSrvPoolInit hostL

section Run

variable {pl : LdlmPool}

theorem PoolInv.start (h : PoolStart pl) : PoolInv pl := by
  obtain ⟨hostL, h1, h30, rfl⟩ := h
  have hL : (UInt32.ofNat hostL).toNat = hostL := by
    rw [UInt32.toNat_ofNat', Nat.mod_eq_of_lt (by omega)]
  -- `LDLM_POOL_GP(L)` is thirty percent of the limit
  have hplan : narrowInt (hostL * ldlmPoolMaxGsp.toNat / 100 % 2 ^ 32) = ((hostL * 30 / 100 : Nat) : Int) := by
    rw [show ldlmPoolMaxGsp.toNat = 30 from rfl, Nat.mod_eq_of_lt (by omega), narrowInt_of_lt (by omega)]
  have hmax : ldlmPoolSlvMax hostL = hostL * 36000 := by rw [ldlmPoolSlvMax, ldlmPoolMaxAge, Nat.div_one]
  refine ⟨?_, ?_, le_rfl, ?_, ?_, ?_, ?_, ?_, ?_, ?_⟩
  all_goals simp only [ldlmSrvPoolInit, hL, hplan, hmax, ldlmPoolSrvDefRecalcPeriod]
  all_goals omega

/-- A recalculation from a pool in range is defined: it is skipped, or the
SLV moves toward the plan within `[1, L * LDLM_POOL_MAX_AGE]` and the next
plan is `G` plus the grant step of `L - G`, capped at `5L/4`. -/
theorem ldlmSrvPoolRecalc_spec (hI : PoolInv pl) (interval : Int) (force : Bool) :
    ldlmSrvPoolRecalc pl interval force = some pl ∨
    ∃ s' g, ldlmPoolT2gsp (pl.plRecalcPeriod % 2 ^ 32).toNat = some g ∧
      ldlmSrvPoolRecalc pl interval force = some
        { pl with
          plServerLockVolume := s'
          plGrantPlan := min (pl.plGranted + ((pl.plLimit.toNat - pl.plGranted) * g).tdiv 100)
            (pl.plLimit.toNat * 5 / 4) } ∧
      1 ≤ s' ∧ s' ≤ ldlmPoolSlvMax pl.plLimit.toNat ∧
      (pl.plGranted ≤ pl.plGrantPlan → pl.plServerLockVolume ≤ s') ∧
      (pl.plGrantPlan ≤ pl.plGranted → s' ≤ pl.plServerLockVolume) := by
  unfold ldlmSrvPoolRecalc
  by_cases hskip : (!force && decide (interval < pl.plRecalcPeriod)) = true
  · exact Or.inl (by rw [if_pos hskip])
  right
  rw [if_neg hskip]
  have hL30 := hI.limit_lt
  have hG30 := hI.granted_lt
  have hP := hI.plan_le
  obtain ⟨s', hslv, hs1, hsM, hup, hdown⟩ := ldlmPoolRecalcSlv_spec hI.limit_pos hI.granted_nonneg (by omega)
    hI.plan_nonneg (by omega) hI.slv_pos hI.slv_le
  -- the period is below `128` seconds whether read signed or unsigned
  have hper : (pl.plRecalcPeriod % 2 ^ 32).toNat < 128 := by
    have := hI.period_lt
    rw [Int.emod_eq_of_lt hI.period_nonneg (by omega)]
    omega
  obtain ⟨g, hg⟩ : ∃ g, ldlmPoolT2gsp (pl.plRecalcPeriod % 2 ^ 32).toNat = some g := ⟨_, ldlmPoolT2gsp_of_lt hper⟩
  have hgr := ldlmPoolT2gsp_range hper hg
  rw [ldlmPoolMinGsp, ldlmPoolMaxGsp] at hgr
  -- the plan is computed on the pool with the new SLV
  have hplan := @ldlmPoolRecalcGrantPlan_eq { pl with plServerLockVolume := s' } hL30 hI.granted_nonneg hG30 g
    hg hgr.1 hgr.2
  refine ⟨s', g, hg, ?_, hs1, hsM, hup, hdown⟩
  simp only [hslv, Option.bind_eq_bind, Option.bind_some, hplan]

theorem PoolInv.recalc (hI : PoolInv pl) (interval : Int) (force : Bool) :
    ∃ pl', ldlmSrvPoolRecalc pl interval force = some pl' ∧ PoolInv pl' := by
  rcases ldlmSrvPoolRecalc_spec hI interval force with h | hrecalc
  · exact ⟨pl, h, hI⟩
  · obtain ⟨s', g, hg, h, hs1, hsM, -⟩ := hrecalc
    have hgr := ldlmPoolT2gsp_range (by have := hI.period_lt; have := hI.period_nonneg; omega) hg
    rw [ldlmPoolMinGsp, ldlmPoolMaxGsp] at hgr
    refine ⟨_, h, ⟨hI.limit_pos, hI.limit_lt, hI.granted_nonneg, hI.granted_lt, ?_, min_le_right _ _, hs1, hsM,
      hI.period_nonneg, hI.period_lt⟩⟩
    exact grantPlan_nonneg (Int.natCast_nonneg _) hI.granted_nonneg hgr.1 hgr.2

/-- Every admitted operation on a pool in range is defined and keeps it in
range. -/
theorem PoolInv.step (hI : PoolInv pl) {op : LdlmPoolOp} (hop : PoolAllowed pl op) :
    ∃ r pl', ldlmPoolStep pl op = some (r, pl') ∧ PoolInv pl' := by
  cases op with
  | add =>
    have : (pl.plGranted + 1) * 30 < 2 ^ 31 := hop
    have hG0 := hI.granted_nonneg
    exact ⟨0, _, rfl, { hI with granted_nonneg := (by dsimp only; omega), granted_lt := this }⟩
  | del =>
    have : 0 < pl.plGranted := hop
    have hG30 := hI.granted_lt
    exact ⟨0, _, rfl, { hI with granted_nonneg := (by dsimp only; omega), granted_lt := (by dsimp only; omega) }⟩
  | setRecalcPeriod t =>
    obtain ⟨ht0, ht⟩ : 0 ≤ t ∧ t < 128 := hop
    exact ⟨0, _, rfl, { hI with period_nonneg := ht0, period_lt := ht }⟩
  | recalc interval force =>
    obtain ⟨pl', h, hI'⟩ := hI.recalc interval force
    exact ⟨0, pl', by rw [ldlmPoolStep, h, Option.map_some], hI'⟩
  | shrink nr =>
    obtain ⟨s', h, hs1, hs⟩ := ldlmSrvPoolShrink_spec pl nr hI.slv_pos
    refine ⟨(ldlmSrvPoolShrink pl nr).1, (ldlmSrvPoolShrink pl nr).2, rfl, ?_⟩
    rw [h]
    exact { hI with slv_pos := hs1, slv_le := le_trans hs hI.slv_le }

theorem PoolInv.of_reachable (hpl : StepRun.Reachable ldlmPoolStep PoolAllowed PoolStart pl) : PoolInv pl := by
  refine StepRun.Reachable.inv _ _ PoolInv (fun _ hs => PoolInv.start hs) ?_ hpl
  intro pl op r pl' hop hI hstep
  obtain ⟨r', pl'', hstep', hI'⟩ := hI.step hop
  rw [hstep, Option.some.injEq, Prod.mk.injEq] at hstep'
  rw [hstep'.2]
  exact hI'

end Run

/-- The counterexamples: a limit of `5 * 10^8` locks overflows `limit * 5`,
`10^8` locks overflow the grant step at a period of `10` seconds, a period
of `128` seconds shifts by `32`, and with a limit of `2^31` the usage reads
as a negative `int` and the SLV drops to `1` although nothing is granted. -/
theorem ldlm_srv_pool_recalc_undefined :
    ldlmSrvPoolRecalc ⟨500000000, 0, 1, 1, 0⟩ 1 true = none ∧
      ldlmSrvPoolRecalc ⟨100000000, 0, 1, 10, 0⟩ 10 true = none ∧
      ldlmSrvPoolRecalc ⟨1000, 0, 1000, 128, 0⟩ 200 true = none ∧
      (ldlmPoolRecalcSlv ⟨2 ^ 31, 0, 36000, 1, 0⟩).map (·.plServerLockVolume) = some 1 := by
  decide

end Lustre.Ldlm
