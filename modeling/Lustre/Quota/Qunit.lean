import Mathlib

/-! # The quota unit of a quota entry

`qmt_adjust_qunit` in `lustre/quota/qmt_entry.c` sets the unit in which
the quota master hands space to its slaves, `lqe_qunit`. It starts from the
current unit (the pool's `qpi_least_qunit` at first) and either grows it by
factors of 4 while three quarters of the room under the limit is still
left, or shrinks it by factors of 4 until half a unit per slave fits under
the limit, never below the least unit. Over the block soft limit the unit
is capped by the pool's `qpi_soft_least_qunit` (`qmt_calc_softlimit`). When
the unit reaches the least one, `lqe_revoke_time` records when, and
`qmt_adjust_edquot` may then set `lqe_edquot`.

The 64-bit arithmetic of the C code is kept: sums and products of `__u64`
values are taken modulo `2 ^ 64`. Each loop runs at most 32 turns, since a
64-bit value shifted by two bits 32 times is 0. The slave count `qpi_slv_nr` and the clock
(`ktime_get_seconds`) are arguments; the lock on the entry is held.
-/

namespace Lustre.Quota

/-- `LQUOTA_RES_MD` or `LQUOTA_RES_DT`. -/
inductive LquotaResType
  | md
  | dt
  deriving DecidableEq, Repr

/-- What the functions read of `struct qmt_pool_info`. -/
structure QmtPoolInfo where
  qpiRtype : LquotaResType
  qpiLeastQunit : Nat
  qpiSoftLeastQunit : Nat
  deriving DecidableEq, Repr

/-- What the functions read and write of `struct lquota_entry`. -/
structure LquotaEntry where
  lqeEnforced : Bool
  /-- `lqe_id.qid_uid` -/
  lqeIdUid : Nat
  lqeSoftlimit : Nat
  lqeHardlimit : Nat
  lqeGranted : Nat
  lqeQunit : Nat
  lqeRevokeTime : Int
  lqeEdquot : Bool
  lqeGracetime : Nat
  lqeMayRel : Nat
  deriving DecidableEq, Repr

/-- `QMT_REBA_TIMEOUT`. -/
def qmtRebaTimeout : Int := 2

/-- `qmt_calc_softlimit(lqe, &oversoft)`: the limit the unit is computed
from, and whether the entry is over its block soft limit. -/
def qmtCalcSoftlimit (pool : QmtPoolInfo) (lqe : LquotaEntry) : Nat × Bool :=
  -- no special tweaking for inode limits
  if pool.qpiRtype ≠ .dt then (lqe.lqeSoftlimit, false)
  else if lqe.lqeGranted ≤ (lqe.lqeSoftlimit + pool.qpiSoftLeastQunit) % 2 ^ 64 then (lqe.lqeSoftlimit, false)
  else if lqe.lqeHardlimit ≠ 0 then (lqe.lqeHardlimit, true)
  else (0, true)

/-- The loop growing the unit: while it is not 0 and `limit` is at least
`granted + 6 * qunit * slv_cnt`, `qunit <<= 2`. -/
def growQunit (limit granted slvCnt : Nat) : Nat → Nat → Nat
  | 0, q => q
  | fuel + 1, q =>
    if q ≠ 0 ∧ (granted + 6 * q * slvCnt) % 2 ^ 64 ≤ limit then growQunit limit granted slvCnt fuel (q * 4 % 2 ^ 64)
    else q

/-- The loop shrinking the unit: while it is above the least unit and
`limit` is below `granted + (slv_cnt * qunit) >> 1`, `qunit >>= 2`. -/
def shrinkQunit (least limit granted slvCnt : Nat) : Nat → Nat → Nat
  | 0, q => q
  | fuel + 1, q =>
    if least < q ∧ limit < (granted + slvCnt * q % 2 ^ 64 / 2) % 2 ^ 64 then
      shrinkQunit least limit granted slvCnt fuel (q / 4)
    else q

/-- The unit the computation starts from: the current one, or the least
unit at first. -/
def qunitStart (pool : QmtPoolInfo) (lqe : LquotaEntry) : Nat :=
  if lqe.lqeQunit = 0 then pool.qpiLeastQunit else lqe.lqeQunit

/-- The unit `qmt_adjust_qunit` computes from `limit`, before the cap. -/
def qunitUncapped (pool : QmtPoolInfo) (slvCnt : Nat) (lqe : LquotaEntry) (limit : Nat) : Nat :=
  let qunit := qunitStart pool lqe
  if qunit = pool.qpiLeastQunit ∨ (lqe.lqeGranted + slvCnt * qunit % 2 ^ 64 / 2) % 2 ^ 64 ≤ limit then
    -- the current unit still fits: see whether it can grow
    let q := growQunit limit lqe.lqeGranted slvCnt 32 qunit
    if q = 0 then limit / (2 * slvCnt) else q
  else shrinkQunit pool.qpiLeastQunit limit lqe.lqeGranted slvCnt 32 qunit

/-- The unit `qmt_adjust_qunit` computes from `limit`, capped by `qunit2`
when that is not 0. -/
def qunitFor (pool : QmtPoolInfo) (slvCnt : Nat) (lqe : LquotaEntry) (limit qunit2 : Nat) : Nat :=
  let qunit := qunitUncapped pool slvCnt lqe limit
  if qunit2 ≠ 0 ∧ qunit2 < qunit then qunit2 else qunit

/-- The label `done` of `qmt_adjust_qunit`: store the unit if it changed,
and note when it became the least unit. -/
def qunitDone (pool : QmtPoolInfo) (seconds : Int) (lqe : LquotaEntry) (qunit : Nat) : Bool × LquotaEntry :=
  if lqe.lqeQunit = qunit then (false, lqe)
  else
    let revoke : Int := if lqe.lqeQunit ≤ qunit ∧ qunit = pool.qpiLeastQunit then seconds else 0
    (true, { lqe with lqeQunit := qunit, lqeRevokeTime := revoke })

/-- `qmt_adjust_qunit(env, lqe)` with `slvCnt` slaves at time `seconds`:
whether the unit changed, and the entry after. -/
def qmtAdjustQunit (pool : QmtPoolInfo) (slvCnt : Nat) (seconds : Int) (lqe : LquotaEntry) : Bool × LquotaEntry :=
  if !lqe.lqeEnforced ∨ lqe.lqeIdUid = 0 then (false, lqe)
  else if slvCnt = 0 then
    -- no slave left: the unit is reset until slaves join
    if lqe.lqeQunit ≠ 0 then qunitDone pool seconds lqe 0 else (false, lqe)
  else if lqe.lqeSoftlimit ≠ 0 then
    let (limit, oversoft) := qmtCalcSoftlimit pool lqe
    let qunit2 := if oversoft then pool.qpiSoftLeastQunit else 0
    if limit = 0 then qunitDone pool seconds lqe qunit2
    else qunitDone pool seconds lqe (qunitFor pool slvCnt lqe limit qunit2)
  else if lqe.lqeHardlimit ≠ 0 then qunitDone pool seconds lqe (qunitFor pool slvCnt lqe lqe.lqeHardlimit 0)
  -- enforced, but neither limit is set
  else (false, lqe)

/-- `qmt_hard_exhausted(lqe)`. -/
def qmtHardExhausted (lqe : LquotaEntry) : Bool := lqe.lqeHardlimit ≠ 0 && lqe.lqeHardlimit ≤ lqe.lqeGranted

/-- `qmt_soft_exhausted(lqe, now)`. -/
def qmtSoftExhausted (lqe : LquotaEntry) (now : Nat) : Bool :=
  lqe.lqeSoftlimit ≠ 0 && lqe.lqeSoftlimit < lqe.lqeGranted && lqe.lqeGracetime ≠ 0 && lqe.lqeGracetime ≤ now

/-- `qmt_space_exhausted(lqe, now)`. -/
def qmtSpaceExhausted (lqe : LquotaEntry) (now : Nat) : Bool := qmtHardExhausted lqe || qmtSoftExhausted lqe now

/-- `qmt_adjust_edquot(lqe, now)` at time `seconds`: whether the flag
`lqe_edquot` changed, and the entry after. -/
def qmtAdjustEdquot (pool : QmtPoolInfo) (seconds : Int) (now : Nat) (lqe : LquotaEntry) : Bool × LquotaEntry :=
  if !lqe.lqeEnforced ∨ lqe.lqeIdUid = 0 then (false, lqe)
  else if !lqe.lqeEdquot then
    if !qmtSpaceExhausted lqe now then (false, lqe)
    else if qmtHardExhausted lqe ∨ pool.qpiRtype ≠ .dt then
      -- the least unit has to be reached and sent to the slaves, and the
      -- slaves given time to release space
      if lqe.lqeQunit ≠ pool.qpiLeastQunit then (false, lqe)
      else if lqe.lqeRevokeTime = 0 then (false, lqe)
      else if lqe.lqeMayRel ≠ 0 ∧ seconds - qmtRebaTimeout < lqe.lqeRevokeTime then (false, lqe)
      else (true, { lqe with lqeEdquot := true })
    else if pool.qpiSoftLeastQunit < lqe.lqeQunit then (false, lqe)
    else (true, { lqe with lqeEdquot := true })
  else if qmtSpaceExhausted lqe now then (false, lqe)
  -- cleared only once a least unit is available again
  else if lqe.lqeHardlimit ≠ 0 ∧ lqe.lqeHardlimit < (lqe.lqeGranted + pool.qpiLeastQunit) % 2 ^ 64 then (false, lqe)
  else (true, { lqe with lqeEdquot := false })

/-! ## The loops stop within 32 turns -/

/-- 32 shifts by two bits move a 64-bit value out. -/
theorem four_pow_32 : (4 : Nat) ^ 32 = 2 ^ 64 := by decide

end Lustre.Quota
