import Mathlib
import Lustre.Lib.CArith

/-! # The server lock pool's numbers

`lustre/ldlm/ldlm_pool.c`. A server lock pool has a limit `L` of locks, the
number `G` granted, a grant plan and a server lock volume (SLV). Every
recalculation period `ldlm_srv_pool_recalc` moves the SLV by the ratio of
`L - (G - plan)` to `L`, clamped to `[1, L * LDLM_POOL_MAX_AGE]`, and sets
the next plan to `G` plus a grant step, a percentage of `L - G` that grows
with the period (`ldlm_pool_t2gsp`), capped at `5L/4`; under memory
pressure `ldlm_srv_pool_shrink` lowers the SLV by the number of locks asked
for.

The limit is read and written as a `__u32` (`ldlm_pool_get_limit`,
`ldlm_pool_set_limit`) and stored in the `int` locals of
`ldlm_pool_recalc_grant_plan`; the plan and the count are `int`s, the SLV a
`__u64`. Undefined behaviour is `none`: a signed overflow (`cInt`), a shift
of an `int` by 32 bits or more, and `do_div` by zero. The clock is left
out: a recalculation is given the seconds since the last one. The lock
rates, the statistics and the client side are left out.
-/

namespace Lustre.Ldlm

open CArith

/-- `LDLM_POOL_MAX_GSP`: the largest grant step, in percent. -/
def ldlmPoolMaxGsp : Int := 30

/-- `LDLM_POOL_MIN_GSP`. -/
def ldlmPoolMinGsp : Int := 1

/-- `LDLM_POOL_GSP_STEP_SHIFT`. -/
def ldlmPoolGspStepShift : Nat := 2

/-- `LDLM_POOL_MAX_AGE`: ten hours, in seconds. -/
def ldlmPoolMaxAge : Nat := 36000

/-- `LDLM_POOL_SLV_SHIFT`. -/
def ldlmPoolSlvShift : Nat := 10

/-- `LDLM_POOL_SRV_DEF_RECALC_PERIOD`. -/
def ldlmPoolSrvDefRecalcPeriod : Int := 1

/-- The value of an `int` expression: `none` where it leaves the range of
`int`, a signed overflow. -/
def cInt (x : Int) : Option Int := if -2 ^ 31 ≤ x ∧ x < 2 ^ 31 then some x else none

/-- The fields of `struct ldlm_pool` the server side computes with. -/
structure LdlmPool where
  /-- `pl_limit`, set and read as a `__u32`. -/
  plLimit : UInt32
  /-- `pl_granted`. -/
  plGranted : Int
  /-- `pl_server_lock_volume`, a `__u64`. -/
  plServerLockVolume : Nat
  /-- `pl_recalc_period`, a `time64_t`. -/
  plRecalcPeriod : Int
  /-- `pl_grant_plan`. -/
  plGrantPlan : Int
  deriving DecidableEq, Repr

/-- `dru(val, shift, round_up)`: `val >> shift`, rounded up when asked. -/
def dru (val shift : Nat) (roundUp : Bool) : Nat :=
  ((val + (if roundUp then 2 ^ shift - 1 else 0)) % 2 ^ 64) >>> shift

/-- `ldlm_pool_slv_max(L)`: all locks held by one client for ten hours. -/
def ldlmPoolSlvMax (limit : Nat) : Nat := limit * ldlmPoolMaxAge / 1

/-- `ldlm_pool_slv_min(L)`. -/
def ldlmPoolSlvMin (_limit : Nat) : Nat := 1

/-- `ldlm_pool_t2gsp(t)`: the grant step in percent for a period of `t`
seconds, `t` an `unsigned int`. -/
def ldlmPoolT2gsp (t : Nat) : Option Int :=
  let shift := t >>> ldlmPoolGspStepShift
  -- `int` shifted by its width or more is undefined
  if shift < 32 then some (ldlmPoolMaxGsp - ((ldlmPoolMaxGsp - ldlmPoolMinGsp) >>> shift)) else none

/-- `ldlm_pool_recalc_grant_plan(pl)`. -/
def ldlmPoolRecalcGrantPlan (pl : LdlmPool) : Option LdlmPool := do
  let limit := narrowInt pl.plLimit.toNat
  let granted := pl.plGranted
  -- `pl_recalc_period` passed as an `unsigned int`
  let grantStep ← ldlmPoolT2gsp (pl.plRecalcPeriod % 2 ^ 32).toNat
  let diff ← cInt (limit - granted)
  let grantStep ← cInt (diff * grantStep)
  let grantStep := grantStep.tdiv 100
  let grantPlan ← cInt (granted + grantStep)
  let limit ← cInt (limit * 5)
  let limit := limit >>> (2 : Nat)
  return { pl with plGrantPlan := if grantPlan > limit then limit else grantPlan }

/-- `ldlm_pool_recalc_slv(pl)`. -/
def ldlmPoolRecalcSlv (pl : LdlmPool) : Option LdlmPool := do
  let slv := pl.plServerLockVolume
  let grantPlan := pl.plGrantPlan
  let limit := pl.plLimit.toNat
  let granted := pl.plGranted
  -- `granted < limit` compares as `__u32`
  let roundUp := decide ((granted % 2 ^ 32).toNat < limit)
  let diff ← cInt (granted - grantPlan)
  -- `limit - (granted - grant_plan)` is a `__u32`, read as an `int` by `max_t`
  let grantUsage : Nat := (max (narrowInt ((limit - diff) % 2 ^ 32).toNat) 1).toNat
  let slvFactor := (grantUsage <<< ldlmPoolSlvShift) % 2 ^ 64
  -- do_div(slv_factor, limit)
  if limit = 0 then none
  else
    let slvFactor := slvFactor / limit
    let slv := slv * slvFactor % 2 ^ 64
    let slv := dru slv ldlmPoolSlvShift roundUp
    let slv :=
      if slv > ldlmPoolSlvMax limit then ldlmPoolSlvMax limit
      else if slv < ldlmPoolSlvMin limit then ldlmPoolSlvMin limit
      else slv
    some { pl with plServerLockVolume := slv }

/-- `ldlm_srv_pool_recalc(pl, force)`, `interval` being the seconds since
the last recalculation. -/
def ldlmSrvPoolRecalc (pl : LdlmPool) (interval : Int) (force : Bool) : Option LdlmPool :=
  if !force && interval < pl.plRecalcPeriod then some pl
  else do
    -- Recalc SLV after last period. This should be done _before_
    -- recalculating new grant plan.
    let pl ← ldlmPoolRecalcSlv pl
    ldlmPoolRecalcGrantPlan pl

/-- `ldlm_srv_pool_shrink(pl, nr, gfp_mask)`: what it returns, and the pool
after. -/
def ldlmSrvPoolShrink (pl : LdlmPool) (nr : Int) : Int × LdlmPool :=
  -- VM is asking how many entries may be potentially freed
  if nr = 0 then (pl.plGranted, pl)
  -- Client already canceled locks but server is already in shrinker and
  -- can't cancel anything
  else if pl.plGranted = 0 then (0, pl)
  -- `nr` compared with and taken from the `__u64` SLV
  else if (nr % 2 ^ 64).toNat < pl.plServerLockVolume then
    (0, { pl with plServerLockVolume := pl.plServerLockVolume - (nr % 2 ^ 64).toNat })
  else (0, { pl with plServerLockVolume := ldlmPoolSlvMin pl.plLimit.toNat })

/-- `ldlm_srv_pool_setup(pl, limit)`: the `int` limit stored as a `__u32`. -/
def ldlmSrvPoolSetup (pl : LdlmPool) (limit : Int) : LdlmPool :=
  { pl with plLimit := UInt32.ofInt limit }

/-- `ldlm_pool_init` of a server pool, `hostL` being `LDLM_POOL_HOST_L`. -/
def ldlmSrvPoolInit (hostL : Nat) : LdlmPool where
  plLimit := UInt32.ofNat hostL
  plGranted := 0
  plServerLockVolume := ldlmPoolSlvMax (UInt32.ofNat hostL).toNat
  plRecalcPeriod := ldlmPoolSrvDefRecalcPeriod
  -- LDLM_POOL_GP(LDLM_POOL_HOST_L)
  plGrantPlan := narrowInt (hostL * ldlmPoolMaxGsp.toNat / 100 % 2 ^ 32)

/-! ## The pool and its callers -/

/-- What happens to a server pool: `ldlm_pool_add` and `ldlm_pool_del` of a
granted lock, a write of `recalc_period` through sysfs, a recalculation
(`ldlm_pool_add` tries one after each grant, the pools thread one every
period), and the shrinker asking for `nr` locks. -/
inductive LdlmPoolOp
  | add
  | del
  | setRecalcPeriod (t : Int)
  | recalc (interval : Int) (force : Bool)
  | shrink (nr : Int)
  deriving DecidableEq, Repr

/-- One operation: what it returns, and the pool after. -/
def ldlmPoolStep (pl : LdlmPool) : LdlmPoolOp → Option (Int × LdlmPool)
  | .add => some (0, { pl with plGranted := pl.plGranted + 1 })
  | .del => some (0, { pl with plGranted := pl.plGranted - 1 })
  | .setRecalcPeriod t => some (0, { pl with plRecalcPeriod := t })
  | .recalc interval force => (ldlmSrvPoolRecalc pl interval force).map fun pl => (0, pl)
  | .shrink nr => some (ldlmSrvPoolShrink pl nr)

end Lustre.Ldlm
