import Mathlib
import Lustre.Wbc.Cmd

/-! # Removals kept for a later flush

`lustre/llite/memfs.c` and `llite_wbc.c`. Under the `delay` and `subtree`
removal policies, removing an entry that was already flushed to the MDT
does not tell the MDT at once: `wbc_add_removed_item` queues the entry's
FID on its parent's `wbci_removed_list` and counts it in
`wbci_removed_count`. A removed directory brings its own queue: under
`delay` it is moved to the parent's, under `subtree` it is freed (the MDT
removes the whole subtree). When the parent is flushed, `wbc_do_rmfid`
takes the queue and sends it to the MDT in arrays of at most
`wbcc_max_rmfid_count` FIDs through `md_rmfid`.

A queued item is its FID; `heap` is the list of items allocated and not yet
freed, so that an item on no queue but still on `heap` is leaked. What the
allocator and the MDT answer is given by `RmfidOutcomes`. The arrays
`wbc_do_rmfid` allocates hold `nr` entries; a write past them is `none`, as
is a failed `LASSERT`. Its `rc` is `none` until something is assigned to it.
-/

namespace Lustre.Wbc

/-- The removals a directory holds back: `wbci_removed_list` and
`wbci_removed_count`. -/
structure WbcRemoved where
  wbciRemovedList : List Nat
  wbciRemovedCount : UInt32
  deriving DecidableEq, Repr

/-- The removal queues of the directories, by inode number, and the items
allocated. -/
structure RemovedState where
  removed : Nat → WbcRemoved
  heap : List Nat

/-- Set the queue of one directory. -/
def RemovedState.setRemoved (st : RemovedState) (dir : Nat) (w : WbcRemoved) : RemovedState :=
  { st with removed := Function.update st.removed dir w }

/-- `wbc_free_removed_list(list)`. -/
def wbcFreeRemovedList (heap : List Nat) (list : List Nat) : List Nat := list.foldl List.erase heap

/-- `wbc_add_removed_item(dir, dchild, pol)` for the child `child` of
`dir`, a directory when `isDir`; `allocOk` is whether `OBD_ALLOC_PTR`
succeeds. -/
def wbcAddRemovedItem (st : RemovedState) (dir child : Nat) (isDir allocOk : Bool) (pol : WbcRemovePolicy) :
    Int × RemovedState :=
  if ¬ allocOk then (-enomem, st)
  else
    let st := { st with heap := st.heap ++ [child] }
    let cw := st.removed child
    -- the child's queue: moved to the parent's, or taken to be freed
    let (st, head) : RemovedState × List Nat :=
      if isDir then
        match pol with
        | .delay =>
          let dw := st.removed dir
          ((st.setRemoved child { cw with wbciRemovedList := [] }).setRemoved dir
            { wbciRemovedList := dw.wbciRemovedList ++ cw.wbciRemovedList,
              wbciRemovedCount := dw.wbciRemovedCount + cw.wbciRemovedCount }, [])
        | .subtree => (st.setRemoved child { cw with wbciRemovedList := [] }, cw.wbciRemovedList)
        | _ => (st, [])
      else (st, [])
    let dw := st.removed dir
    let st := st.setRemoved dir
      { wbciRemovedList := dw.wbciRemovedList ++ [child], wbciRemovedCount := dw.wbciRemovedCount + 1 }
    (1, { st with heap := wbcFreeRemovedList st.heap head })

/-- `memfs_remove_policy(dir, dchild, rmdir)` under the policy `rmpol` of
the configuration: nothing unless the child is in lock-keep mode and was
flushed; the MDT's answer `mdtRc` under `sync`. -/
def memfsRemovePolicy (st : RemovedState) (rmpol : WbcRemovePolicy) (dir child : Nat)
    (isDir lockKeep wasFlushed allocOk : Bool) (mdtRc : Int) : Int × RemovedState :=
  if ¬ lockKeep then (0, st)
  else if ¬ wasFlushed then (0, st)
  else match rmpol with
    | .sync => (mdtRc, st)
    | .delay => wbcAddRemovedItem st dir child isDir allocOk .delay
    | .subtree => wbcAddRemovedItem st dir child isDir allocOk .subtree
    | .none => (0, st)

/-! ## `wbc_do_rmfid` -/

/-- What the allocator and the MDT answer during one `wbc_do_rmfid`. -/
structure RmfidOutcomes where
  /-- `OBD_ALLOC(fa, size)` -/
  faAllocOk : Bool
  /-- `OBD_ALLOC_PTR_ARRAY(rcs, nr)` -/
  rcsAllocOk : Bool
  /-- the `n`-th `md_rmfid` -/
  mdRmfidRc : Nat → Int

/-- The locals of `wbc_do_rmfid`: the array being filled (`fa_fids[0..fa_nr)`),
`total`, `rc`, the arrays sent so far, and the items allocated. -/
structure RmfidAcc where
  fa : List Nat
  total : UInt32
  rc : Option Int
  sent : List (List Nat)
  heap : List Nat
  deriving DecidableEq, Repr

/-- `md_rmfid(exp, fa, rcs, flags, NULL)` with arrays of `nr` entries: it
writes `rcs[0..fa_nr)`, past the array when `fa_nr > nr`. -/
def mdRmfid (o : RmfidOutcomes) (nr : UInt32) (acc : RmfidAcc) : Option (Int × RmfidAcc) :=
  if acc.fa.length > nr.toNat then none
  else
    let rc := o.mdRmfidRc acc.sent.length
    some (rc, { acc with rc := some rc, sent := acc.sent ++ [acc.fa] })

/-- How the loop of `wbc_do_rmfid` ends: at the end of the list, or by the
`GOTO(free_rcs, rc)` of a failed `md_rmfid`. -/
inductive RmfidLoopEnd where
  | done
  | failed
  deriving DecidableEq, Repr

/-- The loop of `wbc_do_rmfid` over the list it took: each item is written
to `fa_fids[fa_nr]` and freed, and a full array is sent. -/
def rmfidLoop (o : RmfidOutcomes) (max nr : UInt32) : List Nat → RmfidAcc → Option (RmfidLoopEnd × RmfidAcc)
  | [], acc => some (.done, acc)
  | item :: rest, acc =>
    if acc.fa.length ≥ nr.toNat then none
    else
      let acc := { acc with fa := acc.fa ++ [item], total := acc.total + 1, heap := acc.heap.erase item }
      if acc.fa.length = max.toNat then
        match mdRmfid o nr acc with
        | none => none
        | some (rc, acc) =>
          if rc ≠ 0 then some (.failed, acc)
          else rmfidLoop o max nr rest { acc with fa := [] }
      else rmfidLoop o max nr rest acc

/-- `wbc_do_rmfid(dir, valid)` with `wbcc_max_rmfid_count = max`: the value
of `rc` it returns, the arrays it sent, and the state after it. -/
def wbcDoRmfid (st : RemovedState) (dir : Nat) (max : UInt32) (o : RmfidOutcomes) :
    Option (Option Int × List (List Nat) × RemovedState) :=
  let w := st.removed dir
  let count := w.wbciRemovedCount
  let head := w.wbciRemovedList
  let st := st.setRemoved dir { wbciRemovedList := [], wbciRemovedCount := 0 }
  let nr := min max count
  if ¬ o.faAllocOk then some (some (-enomem), [], st)
  else if ¬ o.rcsAllocOk then some (some (-enomem), [], st)
  else
    match rmfidLoop o max nr head { fa := [], total := 0, rc := none, sent := [], heap := st.heap } with
    | none => none
    | some (.failed, acc) => some (acc.rc, acc.sent, { st with heap := acc.heap })
    | some (.done, acc) =>
      if acc.total ≠ count then none
      else if acc.fa ≠ [] then
        (mdRmfid o nr acc).map fun (rc, acc) => (some rc, acc.sent, { st with heap := acc.heap })
      else some (acc.rc, acc.sent, { st with heap := acc.heap })

end Lustre.Wbc
