import Mathlib
import Lustre.Basic
import Lustre.Lib.Run

/-! # Changelog users and the purge of the changelog

`lustre/mdd/mdd_device.c` and `mdd_dir.c`. The MDT's changelog is an llog of
records numbered by `mc_index`; each registered user has a record in a
second llog holding `cur_endrec`, the last changelog record it has read.
`mdd_changelog_clear(id, endrec)` moves a user's `cur_endrec` forward (to
`mc_index` for `endrec = 0`) and then cancels the changelog records up to
the lowest `cur_endrec`; `mdd_changelog_user_purge(id)` unregisters a user
and cancels up to the lowest `cur_endrec` of the others, or everything when
no user is left.

`mdd_changelog_clear` reads `mc_index` under `mc_lock` and drops the lock
before it walks the users and cancels, so appends can come in between: the
clear is two steps, `mddChangelogClearStart` and `mddChangelogClearFinish`.
The indices are `__u64`; the model's indices stay far below `2^64`, where
`mdd_changelog_llog_cancel`'s `long long` round trip of its argument and its
comparisons with `__u64` indices are the identity and the unsigned order.
Writing an llog record is taken to succeed, and `cur_time`, the handles and
registration are left out.
-/

namespace Lustre.Mdd

/-- `ULLONG_MAX`. -/
def ullongMax : Nat := 2 ^ 64 - 1

/-- `struct llog_changelog_user_rec`: the user and the last record it read. -/
structure ChangelogUserRec where
  curId : Nat
  curEndrec : Nat
  deriving DecidableEq, Repr

/-- `mdd->mdd_cl` with its two llogs: the index of the last record, whether
changelogs are on (`CLM_ON`) and whether `CL_MARK` is in `mc_mask`, the
`cr_index` of each changelog record in llog order, and the user records. -/
structure MddChangelog where
  mcIndex : Nat
  mcOn : Bool
  mcMarkMasked : Bool
  records : List Nat
  users : List ChangelogUserRec
  deriving DecidableEq, Repr

/-! ## Records -/

/-- `mdd_changelog_store` of a record, as `changelog_write_rec` numbers it:
`cr_index = mc_index + 1`, then `++mc_index`. -/
def mddChangelogStore (cl : MddChangelog) : MddChangelog :=
  { cl with records := cl.records ++ [cl.mcIndex + 1], mcIndex := cl.mcIndex + 1 }

/-- A changelog record from an operation: stored when changelogs are on. -/
def mddChangelogAppend (cl : MddChangelog) : MddChangelog :=
  if cl.mcOn then mddChangelogStore cl else cl

/-- `mdd_changelog_write_header(mdd, markerflags)`. -/
def mddChangelogWriteHeader (cl : MddChangelog) : MddChangelog :=
  if cl.mcMarkMasked then cl else mddChangelogStore cl

/-- `mdd_changelog_off(mdd)`. -/
def mddChangelogOff (cl : MddChangelog) : MddChangelog :=
  if cl.mcOn then { mddChangelogWriteHeader cl with mcOn := false } else cl

/-- `llog_changelog_cancel` with `llog_changelog_cancel_cb`: records are in
order, deleted up to the first one past `endrec`. -/
def llogChangelogCancel (records : List Nat) (endrec : Nat) : List Nat :=
  records.dropWhile (· ≤ endrec)

/-- `mdd_changelog_llog_cancel(mdd, endrec)`. -/
def mddChangelogLlogCancel (cl : MddChangelog) (endrec : Nat) : MddChangelog :=
  let cur := cl.mcIndex
  let endrec := if endrec > cur then cur else endrec
  -- purge to "0" is shorthand for everything
  let endrec := if endrec = 0 then cur else endrec
  let cl := if endrec = cur then mddChangelogWriteHeader cl else cl
  { cl with records := llogChangelogCancel cl.records endrec }

/-! ## `mdd_changelog_clear` -/

/-- `struct mdd_changelog_user_clear`. -/
structure MddChangelogUserClear where
  mcucEndrec : Nat
  mcucMinrec : Nat
  mcucId : Nat
  mcucFlush : Bool
  deriving DecidableEq, Repr

/-- The first part of `mdd_changelog_clear(mdd, id, endrec)`: `start_rec`
read under `mc_lock`, the range check, and the `mcuc` the walk starts
from. -/
def mddChangelogClearStart (cl : MddChangelog) (id endrec : Nat) : Except Int MddChangelogUserClear :=
  let startRec := cl.mcIndex
  if startRec < endrec then .error (-einval)
  else if endrec = 0 then .ok ⟨startRec, ullongMax, id, false⟩
  else .ok ⟨endrec, endrec, id, false⟩

/-- `llog_cat_process` of `mdd_changelog_clear_cb` over the user records:
the first error, the `mcuc`, and the user records as written. -/
def mddChangelogClearCb (mcuc : MddChangelogUserClear) :
    List ChangelogUserRec → Int × MddChangelogUserClear × List ChangelogUserRec
  | [] => (0, mcuc, [])
  | rec :: rest =>
    if rec.curId ≠ mcuc.mcucId then
      let (rc, mcuc', rest') := mddChangelogClearCb { mcuc with mcucMinrec := min mcuc.mcucMinrec rec.curEndrec } rest
      (rc, mcuc', rec :: rest')
    -- cur_endrec is the oldest purgeable record, make sure we're newer
    else if rec.curEndrec > mcuc.mcucEndrec then (-einval, mcuc, rec :: rest)
    else
      let (rc, mcuc', rest') := mddChangelogClearCb { mcuc with mcucFlush := true } rest
      (rc, mcuc', { rec with curEndrec := mcuc.mcucEndrec } :: rest')

/-- The rest of `mdd_changelog_clear`, after `mc_lock` is dropped: walk the
users, then cancel up to the lowest `cur_endrec`. -/
def mddChangelogClearFinish (cl : MddChangelog) (mcuc : MddChangelogUserClear) : Int × MddChangelog :=
  let (rc, mcuc, users) := mddChangelogClearCb mcuc cl.users
  let cl := { cl with users := users }
  if rc = -einval then (-einval, cl)
  else if mcuc.mcucFlush then
    -- cancelling record 0 destroys the entire changelog
    if mcuc.mcucMinrec ≠ 0 then (0, mddChangelogLlogCancel cl mcuc.mcucMinrec) else (0, cl)
  else (-enoent, cl)

/-- `mdd_changelog_clear(mdd, id, endrec)` with nothing in between its two
parts. -/
def mddChangelogClear (cl : MddChangelog) (id endrec : Nat) : Int × MddChangelog :=
  match mddChangelogClearStart cl id endrec with
  | .error rc => (rc, cl)
  | .ok mcuc => mddChangelogClearFinish cl mcuc

/-! ## `mdd_changelog_user_purge` -/

/-- `struct mdd_changelog_user_purge`. -/
structure MddChangelogUserPurge where
  mcupId : Nat
  mcupFound : Bool
  mcupUsercount : Nat
  mcupMinrec : Nat
  deriving DecidableEq, Repr

/-- `llog_cat_process` of `mdd_changelog_user_purge_cb`: the `mcup` and the
user records left. -/
def mddChangelogUserPurgeCb (mcup : MddChangelogUserPurge) :
    List ChangelogUserRec → MddChangelogUserPurge × List ChangelogUserRec
  | [] => (mcup, [])
  | rec :: rest =>
    let mcup := { mcup with mcupUsercount := mcup.mcupUsercount + 1 }
    if rec.curId ≠ mcup.mcupId then
      -- truncate to the lowest endrec that is not this user
      let (mcup', rest') := mddChangelogUserPurgeCb { mcup with mcupMinrec := min mcup.mcupMinrec rec.curEndrec } rest
      (mcup', rec :: rest')
    else
      -- unregister this user: its record is cancelled
      mddChangelogUserPurgeCb { mcup with mcupFound := true, mcupUsercount := mcup.mcupUsercount - 1 } rest

/-- `mdd_changelog_user_purge(mdd, id)`. -/
def mddChangelogUserPurge (cl : MddChangelog) (id : Nat) : Int × MddChangelog :=
  let (mcup, users) := mddChangelogUserPurgeCb ⟨id, false, 0, ullongMax⟩ cl.users
  let cl := { cl with users := users }
  -- no more users; turn changelogs off
  let cl := if mcup.mcupUsercount = 0 ∧ users = [] then mddChangelogOff cl else cl
  if mcup.mcupFound then
    if mcup.mcupMinrec ≠ 0 ∨ mcup.mcupUsercount = 0 then (0, mddChangelogLlogCancel cl mcup.mcupMinrec)
    else (0, cl)
  else (-enoent, cl)

/-! ## The operations on one MDT -/

/-- What happens to the changelog, each call whole. -/
inductive ChangelogOp where
  /-- an operation that records a changelog entry -/
  | append
  /-- `mdd_changelog_clear(mdd, id, endrec)` -/
  | clear (id endrec : Nat)
  /-- `mdd_changelog_user_purge(mdd, id)` -/
  | purge (id : Nat)
  deriving DecidableEq, Repr

/-- One operation, each call whole. -/
def mddChangelogStep (cl : MddChangelog) : ChangelogOp → Option (Int × MddChangelog)
  | .append => some (0, mddChangelogAppend cl)
  | .clear id endrec => some (mddChangelogClear cl id endrec)
  | .purge id => some (mddChangelogUserPurge cl id)

/-- The changelog with the clears that have read `mc_index` and not yet
walked the users. -/
structure MddChangelogSys where
  cl : MddChangelog
  clearing : List MddChangelogUserClear
  deriving DecidableEq, Repr

/-- What happens to the changelog when a clear can be overtaken between its
two parts. -/
inductive ChangelogEvent where
  | append
  /-- the first part of `mdd_changelog_clear(mdd, id, endrec)` -/
  | clearStart (id endrec : Nat)
  /-- the rest of the clear in flight at position `k` -/
  | clearFinish (k : Nat)
  | purge (id : Nat)
  deriving DecidableEq, Repr

/-- One event; finishing a clear that is not in flight is not an event. -/
def mddChangelogSysStep (s : MddChangelogSys) : ChangelogEvent → Option (Int × MddChangelogSys)
  | .append => some (0, { s with cl := mddChangelogAppend s.cl })
  | .clearStart id endrec =>
    match mddChangelogClearStart s.cl id endrec with
    | .error rc => some (rc, s)
    | .ok mcuc => some (0, { s with clearing := s.clearing ++ [mcuc] })
  | .clearFinish k =>
    match s.clearing[k]? with
    | none => none
    | some mcuc =>
      let (rc, cl) := mddChangelogClearFinish s.cl mcuc
      some (rc, { cl := cl, clearing := s.clearing.eraseIdx k })
  | .purge id =>
    let (rc, cl) := mddChangelogUserPurge s.cl id
    some (rc, { s with cl := cl })

end Lustre.Mdd
