import Mathlib
import Lustre.Lib.CArith
import Lustre.Lib.Run
import Lustre.Osc.Cache.Ledger
import Lustre.Osc.Grant

/-! # The grant counters over every run of a client

`osc_reserve_grant` and `__osc_unreserve_grant` only move grant between
the four counters, so their sum, as the client adds them in `unsigned long`,
is the same after each (`oscReserveGrant_sum`, `oscUnreserveGrant_sum`),
and a reservation that fails changes nothing (`oscEnterCacheTry_fail`).

That `cl_reserved_grant` and `cl_dirty_grant` never go below zero is a fact
about whole runs. A write in flight has attached to the extent it holds
`grants - tmp` of its reservation; that is more than it reserved only when
a merge gave a tax back, and the grant that tax came from is in the extent,
put into `cl_dirty_grant` by the write that made it. The invariant
`GrantInv` says so: `cl_reserved_grant` is what the writes in flight
reserved; `cl_dirty_grant` plus what they attached is the grant of all the
trees; on each object (`ObjLedger`) no extent holds less than the writes
holding it attached, and no more writes hold an extent than it has users.
Every section of a write or completion keeps it (`oscGrantStep_spec`), from
a client as it starts (`GrantInv.init`), so over every run
(`GrantReachable.inv`) the counters move by exactly what the code adds and
subtracts, and none of them wraps. No section adds to their total either, so
from a client granted `avail` bytes they never hold more
(`osc_grant_reserved_fits_long`).
-/

namespace Lustre.Osc

open CArith

/-- The four counters added up in `unsigned long`, as the client adds them. -/
def grantSum (cli : ClientGrant) : UInt64 :=
  cli.clAvailGrant + UInt64.ofInt cli.clReservedGrant + cli.clDirtyGrant + cli.clLostGrant

/-- The values of the four counters added up. -/
def ClientGrant.total (cli : ClientGrant) : Nat :=
  cli.clAvailGrant.toNat + cli.clReservedGrant.toNat + cli.clDirtyGrant.toNat + cli.clLostGrant.toNat

/-! ## The counters -/

section Counters

variable (cli : ClientGrant)

/-- `osc_reserve_grant` moves grant from the available to the reserved
counter. -/
theorem oscReserveGrant_sum (bytes : Nat) : grantSum (oscReserveGrant cli bytes).2 = grantSum cli := by
  unfold oscReserveGrant grantSum
  split_ifs
  · dsimp only
    rw [UInt64.ofInt_add, ofInt_natCast]
    grind
  · rfl

/-- `__osc_unreserve_grant` moves grant from the reserved counter to the
available and dirty ones, and a saved tax from the dirty to the lost one. -/
theorem oscUnreserveGrant_sum (reserved unused : Nat) :
    grantSum (oscUnreserveGrant cli reserved unused) = grantSum cli := by
  unfold oscUnreserveGrant grantSum
  split_ifs with h
  · dsimp only
    rw [Int.sub_eq_add_neg, UInt64.ofInt_add, UInt64.ofInt_neg, ofInt_natCast, UInt64.ofNat_sub (Nat.le_of_lt h)]
    grind
  · dsimp only
    rw [Int.sub_eq_add_neg, UInt64.ofInt_add, UInt64.ofInt_neg, ofInt_natCast,
      UInt64.ofNat_sub (Nat.le_of_not_lt h)]
    grind

/-- What `osc_reserve_grant` does: take the grant, or fail with `-EDQUOT`. -/
theorem oscReserveGrant_cases (bytes : Nat) :
    (UInt64.ofNat bytes ≤ cli.clAvailGrant ∧ oscReserveGrant cli bytes = (0, { cli with
        clAvailGrant := cli.clAvailGrant - UInt64.ofNat bytes
        clReservedGrant := cli.clReservedGrant + bytes })) ∨
      (¬ UInt64.ofNat bytes ≤ cli.clAvailGrant ∧ oscReserveGrant cli bytes = (-edquot, cli)) := by
  unfold oscReserveGrant
  by_cases h : cli.clAvailGrant ≥ UInt64.ofNat bytes
  · exact .inl ⟨h, if_pos h⟩
  · exact .inr ⟨h, if_neg h⟩

theorem oscEnterCacheTry_eq (bytes : Nat) (dirtyOk : Bool) :
    oscEnterCacheTry cli bytes dirtyOk =
      if (oscReserveGrant cli bytes).1 < 0 then (0, (oscReserveGrant cli bytes).2)
      else if dirtyOk then (1, (oscReserveGrant cli bytes).2)
      else (0, oscUnreserveGrant (oscReserveGrant cli bytes).2 bytes bytes) := rfl

theorem oscEnterCacheTry_sum (bytes : Nat) (dirtyOk : Bool) :
    grantSum (oscEnterCacheTry cli bytes dirtyOk).2 = grantSum cli := by
  rw [oscEnterCacheTry_eq]
  split_ifs
  · exact oscReserveGrant_sum cli bytes
  · exact oscReserveGrant_sum cli bytes
  · rw [oscUnreserveGrant_sum, oscReserveGrant_sum]

/-- A page that takes no grant leaves the counters as they were: the
reservation failed, or was given back whole. -/
theorem oscEnterCacheTry_fail {bytes : Nat} {dirtyOk : Bool} (h : (oscEnterCacheTry cli bytes dirtyOk).1 ≠ 1) :
    (oscEnterCacheTry cli bytes dirtyOk).2 = cli := by
  rcases oscReserveGrant_cases cli bytes with ⟨-, hr⟩ | ⟨-, hr⟩
  · cases dirtyOk with
    | true => simp [oscEnterCacheTry_eq, hr] at h
    | false =>
      -- reserved, then all of it given back
      simp [oscEnterCacheTry_eq, hr, oscUnreserveGrant]
  · simp [oscEnterCacheTry_eq, hr, edquot]

/-- A page that takes grant keeps the reservation. -/
theorem oscEnterCacheTry_ok {bytes : Nat} {dirtyOk : Bool} (h : (oscEnterCacheTry cli bytes dirtyOk).1 = 1) :
    UInt64.ofNat bytes ≤ cli.clAvailGrant ∧ (oscEnterCacheTry cli bytes dirtyOk).2 =
      { cli with
        clAvailGrant := cli.clAvailGrant - UInt64.ofNat bytes
        clReservedGrant := cli.clReservedGrant + bytes } := by
  rcases oscReserveGrant_cases cli bytes with ⟨hle, hr⟩ | ⟨-, hr⟩
  · cases dirtyOk with
    | true => exact ⟨hle, by simp [oscEnterCacheTry_eq, hr]⟩
    | false => simp [oscEnterCacheTry_eq, hr] at h
  · simp [oscEnterCacheTry_eq, hr, edquot] at h

/-- The counters as numbers: what a reservation takes. -/
theorem total_reserve {bytes : Nat} (hle : UInt64.ofNat bytes ≤ cli.clAvailGrant) (hb : bytes < 2 ^ 64)
    (hr : 0 ≤ cli.clReservedGrant) :
    ({ cli with
      clAvailGrant := cli.clAvailGrant - UInt64.ofNat bytes
      clReservedGrant := cli.clReservedGrant + bytes } : ClientGrant).total = cli.total := by
  have hle' : bytes ≤ cli.clAvailGrant.toNat := by
    have := UInt64.le_iff_toNat_le.mp hle
    rwa [UInt64.toNat_ofNat_of_lt' hb] at this
  unfold ClientGrant.total
  dsimp only
  rw [toNat_sub_ofNat hle']
  omega

/-- `__osc_unreserve_grant` of a reservation the reserved counter holds,
whose surplus the dirty counter covers, on counters that add up below
`2^64`: no counter wraps, each moves by what the code adds or subtracts. -/
theorem oscUnreserveGrant_exact {reserved unused : Nat} (hr : (reserved : Int) ≤ cli.clReservedGrant)
    (hd : unused - reserved ≤ cli.clDirtyGrant.toNat) (hS : cli.total < 2 ^ 64) :
    (oscUnreserveGrant cli reserved unused).clReservedGrant = cli.clReservedGrant - reserved ∧
      ((oscUnreserveGrant cli reserved unused).clDirtyGrant.toNat : Int) =
        cli.clDirtyGrant.toNat + reserved - unused ∧
      (oscUnreserveGrant cli reserved unused).total = cli.total := by
  unfold ClientGrant.total at hS
  unfold oscUnreserveGrant
  split_ifs with hu
  · -- a saved tax goes from the dirty to the lost counter
    have ha := toNat_add_ofNat (a := cli.clAvailGrant) (n := reserved) (by omega)
    have hl := toNat_add_ofNat (a := cli.clLostGrant) (n := unused - reserved) (by omega)
    have hdi := toNat_sub_ofNat (a := cli.clDirtyGrant) (n := unused - reserved) hd
    refine ⟨rfl, ?_, ?_⟩
    · dsimp only
      rw [hdi]
      omega
    · unfold ClientGrant.total
      dsimp only
      rw [ha, hl, hdi]
      omega
  · have ha := toNat_add_ofNat (a := cli.clAvailGrant) (n := unused) (by omega)
    have hdi := toNat_add_ofNat (a := cli.clDirtyGrant) (n := reserved - unused) (by omega)
    refine ⟨rfl, ?_, ?_⟩
    · dsimp only
      rw [hdi]
      omega
    · unfold ClientGrant.total
      dsimp only
      rw [ha, hdi]
      omega

/-- `osc_free_grant` of grant the dirty counter holds, of which at most all
is lost: no counter wraps, and the counters drop by what is not lost. -/
theorem oscFreeGrant_exact (obd : ClientObd) {lostGrant dirtyGrant : Nat} (hd : dirtyGrant ≤ cli.clDirtyGrant.toNat)
    (hl : lostGrant ≤ dirtyGrant) (hS : cli.total < 2 ^ 64) :
    (oscFreeGrant obd cli lostGrant dirtyGrant).clReservedGrant = cli.clReservedGrant ∧
      (oscFreeGrant obd cli lostGrant dirtyGrant).clDirtyGrant.toNat + dirtyGrant = cli.clDirtyGrant.toNat ∧
      (oscFreeGrant obd cli lostGrant dirtyGrant).total + dirtyGrant = cli.total + lostGrant := by
  unfold ClientGrant.total at hS
  have hl' := toNat_add_ofNat (a := cli.clLostGrant) (n := lostGrant) (by omega)
  have hdi := toNat_sub_ofNat (a := cli.clDirtyGrant) (n := dirtyGrant) hd
  unfold oscFreeGrant
  dsimp only
  split_ifs with hb
  · -- grant borrowed back from the lost counter
    obtain ⟨hlt, hge⟩ := hb
    have hge' := UInt64.le_iff_toNat_le.mp hge
    have hlt' := UInt64.lt_iff_toNat_lt.mp hlt
    rw [hl'] at hge'
    have ha : (cli.clAvailGrant + UInt64.ofNat (chunksize obd + obd.clGrantExtentTax)).toNat =
        cli.clAvailGrant.toNat + (UInt64.ofNat (chunksize obd + obd.clGrantExtentTax)).toNat := by
      rw [UInt64.toNat_add, Nat.mod_eq_of_lt (by omega)]
    have hs := UInt64.toNat_sub_of_le _ _ hge
    refine ⟨rfl, by rw [hdi]; omega, ?_⟩
    unfold ClientGrant.total
    dsimp only
    rw [ha, hs, hl', hdi]
    omega
  · refine ⟨rfl, by rw [hdi]; omega, ?_⟩
    unfold ClientGrant.total
    dsimp only
    rw [hl', hdi]
    omega

end Counters

/-! ## What the writes in flight hold -/

/-- The writes in flight that hold the extent at `i`. -/
def pendingOn (resv : List GrantResv) (i : Nat) : Nat := Keyed.filed (fun _ => 1) (·.ext) resv i

/-- The grant they attached to it. -/
def attachedOn (resv : List GrantResv) (i : Nat) : Nat := Keyed.filed (fun w => w.grants - w.tmp) (·.ext) resv i

/-- What the writes in flight on an object reserved. -/
def GrantObject.reserved (og : GrantObject) : Nat := (og.resv.map (·.grants)).sum

/-- What they attached to extents: more than they reserved where a merge
gave a tax back. -/
def GrantObject.attached (og : GrantObject) : Int := (og.resv.map fun w => (w.grants : Int) - w.tmp).sum

/-- The grant accounts of an object: its tree in shape, a write that holds
no extent with all its reservation left, no extent holding less than the
writes that hold it attached, and no more such writes than it has users. -/
structure ObjLedger (obd : ClientObd) (og : GrantObject) : Prop where
  tree : OscInv obd og.obj
  free : ∀ w ∈ og.resv, w.ext = none → w.tmp = w.grants
  backed : ∀ i, attachedOn og.resv i ≤ extentGrants og.obj i
  held : ∀ i, pendingOn og.resv i ≤ extentUsers og.obj i

/-- The grant accounts of a client: `cl_reserved_grant` is what its writes
in flight reserved, `cl_dirty_grant` with what they attached is the grant
of its trees, and the counters add up below `2^64`. -/
structure GrantInv (obd : ClientObd) (s : GrantState) : Prop where
  objs : ∀ og ∈ s.objs, ObjLedger obd og
  reserved : s.cli.clReservedGrant = (s.objs.map fun og => (og.reserved : Int)).sum
  dirty : (s.cli.clDirtyGrant.toNat : Int) + (s.objs.map GrantObject.attached).sum =
    (s.objs.map fun og => (treeGrants og.obj : Int)).sum
  bound : s.cli.total < 2 ^ 64

section Objects

variable {obd : ClientObd} {og : GrantObject}

/-- The grant of a tree, address by address. -/
theorem treeGrants_eq_sum {obj : OscObject} (h : OscInv obd obj) :
    treeGrants obj = ((obj.ooRoot.map (·.oeId)).map (extentGrants obj)).sum :=
  Keyed.sum_eq_sum_filed (fun e : OscExtent => e.oeGrants) (fun e => some e.oeId) h.idsNodup obj.ooRoot
    fun e he _ => ⟨e.oeId, List.mem_map_of_mem he, rfl⟩

/-- The writes in flight attached no more than the tree holds: a write that
attached grant holds an extent of the tree, and each extent holds what its
writes attached. -/
theorem ObjLedger.attached_le (h : ObjLedger obd og) : og.attached ≤ treeGrants og.obj := by
  have hnat : (og.resv.map fun w => w.grants - w.tmp).sum ≤ treeGrants og.obj := by
    rw [treeGrants_eq_sum h.tree]
    refine Keyed.sum_le_sum_filed _ (fun w : GrantResv => w.ext) h.tree.idsNodup (extentGrants og.obj) ?_
      fun i _ => h.backed i
    intro w hw hpos
    cases hext : w.ext with
    | none => exact absurd (by rw [h.free w hw hext, Nat.sub_self]) hpos
    | some i =>
      refine ⟨i, ?_, rfl⟩
      by_contra hi
      have h0 : extentGrants og.obj i = 0 := atId_eq_zero fun e he hei => hi (hei ▸ List.mem_map_of_mem he)
      have hle := Keyed.le_filed (fun w => w.grants - w.tmp) (·.ext) hw hext
      have hb := h.backed i
      unfold attachedOn at hb
      omega
  unfold GrantObject.attached
  exact (Keyed.sum_sub_le _ _ _).trans (by exact_mod_cast hnat)

/-- An extent without users is held by no write. -/
theorem ObjLedger.attachedOn_eq_zero (h : ObjLedger obd og) {i : Nat} (hu : extentUsers og.obj i = 0) :
    attachedOn og.resv i = 0 :=
  Keyed.filed_eq_zero_of_count _ _ (Nat.le_zero.mp (hu ▸ h.held i))

/-- The tree moved by a call on the extent at `id` that left it at least
the grant and the users the writes holding it need. -/
theorem ObjLedger.retree (h : ObjLedger obd og) {obj' : OscObject} (htree : OscInv obd obj') {id : Nat}
    (hfr : IdleFrame og.obj obj' id) (hG : attachedOn og.resv id ≤ extentGrants obj' id)
    (hU : pendingOn og.resv id ≤ extentUsers obj' id) : ObjLedger obd { og with obj := obj' } where
  tree := htree
  free := h.free
  backed i := by
    by_cases hi : i = id
    · exact hi ▸ hG
    · rcases hfr.grants i hi with hg | hu
      · exact hg ▸ h.backed i
      · rw [h.attachedOn_eq_zero hu]
        exact Nat.zero_le _
  held i := by
    by_cases hi : i = id
    · exact hi ▸ hU
    · exact (hfr.users i hi).symm ▸ h.held i

/-- A new write, with all its reservation left. -/
theorem ObjLedger.addWrite (h : ObjLedger obd og) (bytes : Nat) :
    ObjLedger obd { og with resv := og.resv ++ [⟨bytes, bytes, none⟩] } where
  tree := h.tree
  free w hw hext := by
    rcases List.mem_append.mp hw with hw | hw
    · exact h.free w hw hext
    · rw [List.mem_singleton.mp hw]
  backed i := by
    unfold attachedOn
    rw [Keyed.filed_append, Keyed.filed_cons, if_neg (by simp)]
    exact h.backed i
  held i := by
    unfold pendingOn
    rw [Keyed.filed_append, Keyed.filed_cons, if_neg (by simp)]
    exact h.held i

/-- A write gone. -/
theorem ObjLedger.eraseWrite (h : ObjLedger obd og) (k : Nat) :
    ObjLedger obd { og with resv := og.resv.eraseIdx k } where
  tree := h.tree
  free w hw := h.free w ((List.eraseIdx_sublist _ _).subset hw)
  backed i := (Keyed.filed_sublist_le _ _ (List.eraseIdx_sublist _ _) i).trans (h.backed i)
  held i := (Keyed.filed_sublist_le _ _ (List.eraseIdx_sublist _ _) i).trans (h.held i)

/-- Write `k`, which held no extent, attached to the extent at `id` what
the call took of its reservation, or still holds nothing. -/
theorem ObjLedger.attach (h : ObjLedger obd og) {k : Nat} (hk : k < og.resv.length) (hw : og.resv[k].ext = none)
    {obj' : OscObject} (htree : OscInv obd obj') {id tmp : Nat} {ext : Option Nat}
    (hmv : Moves og.obj obj' id (og.resv[k].grants - tmp)) (hext : ext = none ∨ ext = some id)
    (hfree : ext = none → tmp = og.resv[k].grants)
    (hheld : pendingOn og.resv id + (if ext = some id then 1 else 0) ≤ extentUsers obj' id) :
    ObjLedger obd ⟨obj', og.resv.set k { og.resv[k] with tmp := tmp, ext := ext }⟩ := by
  -- the write held nothing: what it adds to an address is all it has there
  have hatt : ∀ i, attachedOn (og.resv.set k { og.resv[k] with tmp := tmp, ext := ext }) i =
      attachedOn og.resv i + (if ext = some i then og.resv[k].grants - tmp else 0) := by
    intro i
    have := Keyed.filed_set (fun w => w.grants - w.tmp) (·.ext) hk { og.resv[k] with tmp := tmp, ext := ext } i
    rw [if_neg (by simp [hw])] at this
    exact this
  have hpend : ∀ i, pendingOn (og.resv.set k { og.resv[k] with tmp := tmp, ext := ext }) i =
      pendingOn og.resv i + (if ext = some i then 1 else 0) := by
    intro i
    have := Keyed.filed_set (fun _ => 1) (·.ext) hk { og.resv[k] with tmp := tmp, ext := ext } i
    rw [if_neg (by simp [hw])] at this
    exact this
  refine ⟨htree, ?_, ?_, ?_⟩
  · intro w hw' hne
    rcases List.mem_or_eq_of_mem_set hw' with hw' | rfl
    · exact h.free w hw' hne
    · exact hfree hne
  · intro i
    show attachedOn _ i ≤ extentGrants obj' i
    rw [hatt]
    by_cases hi : i = id
    · subst hi
      have := hmv.gain
      have := h.backed i
      split_ifs <;> omega
    · have hno : ¬ ext = some i := by
        rcases hext with rfl | rfl
        · simp
        · exact fun h' => hi (Option.some.inj h').symm
      rw [if_neg hno, Nat.add_zero]
      rcases hmv.grants i hi with hg | hu
      · exact hg ▸ h.backed i
      · rw [h.attachedOn_eq_zero hu]
        exact Nat.zero_le _
  · intro i
    show pendingOn _ i ≤ extentUsers obj' i
    rw [hpend]
    by_cases hi : i = id
    · exact hi ▸ hheld
    · have hno : ¬ ext = some i := by
        rcases hext with rfl | rfl
        · simp
        · exact fun h' => hi (Option.some.inj h').symm
      rw [if_neg hno, Nat.add_zero, hmv.users i hi]
      exact h.held i

end Objects

/-! ## The client -/

section Client

variable {obd : ClientObd} {s : GrantState} {o : Nat} {og : GrantObject}

theorem GrantInv.objLedger (h : GrantInv obd s) (hog : s.objs[o]? = some og) : ObjLedger obd og :=
  h.objs og (List.mem_of_getElem? hog)

theorem GrantInv.reserved_nonneg (h : GrantInv obd s) : 0 ≤ s.cli.clReservedGrant := by
  rw [h.reserved]
  apply List.sum_nonneg
  intro x hx
  obtain ⟨og', -, rfl⟩ := List.mem_map.mp hx
  exact Int.natCast_nonneg _

/-- The reserved counter holds what the writes on each object reserved. -/
theorem GrantInv.reserved_ge (h : GrantInv obd s) (hog : s.objs[o]? = some og) :
    (og.reserved : Int) ≤ s.cli.clReservedGrant := by
  rw [h.reserved]
  refine List.single_le_sum ?_ _ (List.mem_map_of_mem (List.mem_of_getElem? hog))
  intro x hx
  obtain ⟨og', -, rfl⟩ := List.mem_map.mp hx
  exact Int.natCast_nonneg _

/-- The dirty counter holds, for each object, what its tree holds beyond
what the writes in flight on it attached: no object's writes attached more
than its tree holds. -/
theorem GrantInv.dirty_ge (h : GrantInv obd s) (hog : s.objs[o]? = some og) :
    (treeGrants og.obj : Int) - og.attached ≤ s.cli.clDirtyGrant.toNat := by
  have hsplit : (s.objs.map fun og => (treeGrants og.obj : Int)).sum =
      (s.objs.map fun og => (treeGrants og.obj : Int) - og.attached).sum + (s.objs.map GrantObject.attached).sum := by
    rw [← List.sum_map_add]
    simp only [sub_add_cancel]
  have hle : (treeGrants og.obj : Int) - og.attached ≤
      (s.objs.map fun og => (treeGrants og.obj : Int) - og.attached).sum := by
    refine List.single_le_sum ?_ _ (List.mem_map_of_mem (List.mem_of_getElem? hog))
    intro x hx
    obtain ⟨og', hog', rfl⟩ := List.mem_map.mp hx
    exact Int.sub_nonneg_of_le (h.objs og' hog').attached_le
  have hd := h.dirty
  omega

/-- One object replaced, with the counters moved by what its writes
reserved and attached and by what its tree holds. -/
theorem GrantInv.update (h : GrantInv obd s) (hog : s.objs[o]? = some og) {og' : GrantObject}
    (hog' : ObjLedger obd og') {cli' : ClientGrant}
    (hres : cli'.clReservedGrant + og.reserved = s.cli.clReservedGrant + og'.reserved)
    (hdirty : (cli'.clDirtyGrant.toNat : Int) + og'.attached + treeGrants og.obj =
      s.cli.clDirtyGrant.toNat + og.attached + treeGrants og'.obj)
    (hbound : cli'.total ≤ s.cli.total) : GrantInv obd ⟨cli', s.objs.set o og'⟩ := by
  obtain ⟨ho, rfl⟩ := List.getElem?_eq_some_iff.mp hog
  have hR := Keyed.sum_map_set (fun og : GrantObject => (og.reserved : Int)) ho og'
  have hA := Keyed.sum_map_set GrantObject.attached ho og'
  have hT := Keyed.sum_map_set (fun og : GrantObject => (treeGrants og.obj : Int)) ho og'
  have hr := h.reserved
  have hd := h.dirty
  refine ⟨?_, ?_, ?_, lt_of_le_of_lt hbound h.bound⟩
  · intro og'' hmem
    rcases List.mem_or_eq_of_mem_set hmem with hmem | rfl
    · exact h.objs og'' hmem
    · exact hog'
  · dsimp only
    omega
  · dsimp only
    omega

/-- The same state, spelled with a write and an object put back. -/
theorem GrantState.set_self (hog : s.objs[o]? = some og) {k : Nat} (hk : k < og.resv.length) :
    { s with objs := s.objs.set o ⟨og.obj, og.resv.set k og.resv[k]⟩ } = s := by
  obtain ⟨ho, rfl⟩ := List.getElem?_eq_some_iff.mp hog
  have h1 : (⟨s.objs[o].obj, s.objs[o].resv.set k s.objs[o].resv[k]⟩ : GrantObject) = s.objs[o] := by
    rw [List.set_getElem_self hk]
  rw [h1, List.set_getElem_self ho]

/-- A call that changed neither the tree nor the write. -/
theorem GrantInv.keep (h : GrantInv obd s) (hog : s.objs[o]? = some og) {k : Nat} (hk : k < og.resv.length)
    {w : GrantResv} (hw : w = og.resv[k]) : GrantInv obd { s with objs := s.objs.set o ⟨og.obj, og.resv.set k w⟩ } := by
  rw [hw, GrantState.set_self hog hk]
  exact h

theorem GrantObject.reserved_addWrite (bytes : Nat) :
    ({ og with resv := og.resv ++ [⟨bytes, bytes, none⟩] } : GrantObject).reserved = og.reserved + bytes := by
  simp [GrantObject.reserved]

theorem GrantObject.attached_addWrite (bytes : Nat) :
    ({ og with resv := og.resv ++ [⟨bytes, bytes, none⟩] } : GrantObject).attached = og.attached := by
  simp [GrantObject.attached]

theorem GrantObject.reserved_set {k : Nat} (hk : k < og.resv.length) (obj' : OscObject) (tmp : Nat)
    (ext : Option Nat) :
    (⟨obj', og.resv.set k { og.resv[k] with tmp := tmp, ext := ext }⟩ : GrantObject).reserved = og.reserved := by
  have := Keyed.sum_map_set (fun w : GrantResv => w.grants) hk { og.resv[k] with tmp := tmp, ext := ext }
  unfold GrantObject.reserved
  dsimp only at this ⊢
  omega

/-- One write in flight attached to an extent what the call took of its
reservation, or nothing, with the tree moved as the call moves it. -/
theorem GrantInv.attach (h : GrantInv obd s) (hog : s.objs[o]? = some og) {k : Nat} (hk : k < og.resv.length)
    (hw : og.resv[k].ext = none) {obj' : OscObject} (htree : OscInv obd obj') {id tmp : Nat} {ext : Option Nat}
    (hmv : Moves og.obj obj' id (og.resv[k].grants - tmp)) (hext : ext = none ∨ ext = some id)
    (hfree : ext = none → tmp = og.resv[k].grants)
    (hheld : pendingOn og.resv id + (if ext = some id then 1 else 0) ≤ extentUsers obj' id)
    (hT : treeGrants obj' + tmp = treeGrants og.obj + og.resv[k].tmp) :
    GrantInv obd { s with objs := s.objs.set o ⟨obj', og.resv.set k { og.resv[k] with tmp := tmp, ext := ext }⟩ } := by
  have hL := h.objLedger hog
  have hfr : og.resv[k].tmp = og.resv[k].grants := hL.free _ (List.getElem_mem hk) hw
  have hA := Keyed.sum_map_set (fun w : GrantResv => (w.grants : Int) - w.tmp) hk
    { og.resv[k] with tmp := tmp, ext := ext }
  refine h.update hog (hL.attach hk hw htree hmv hext hfree hheld) ?_ ?_ le_rfl
  · rw [GrantObject.reserved_set hk]
  · -- what the write's reservation lost, the tree took
    unfold GrantObject.attached
    dsimp only at hA ⊢
    omega

end Client

/-! ## The sections, one by one -/

section Steps

variable (obd : ClientObd) (s : GrantState) {o k : Nat} {og : GrantObject} {w : GrantResv}

theorem oscGrantStep_enterCache (hog : s.objs[o]? = some og) (bytes : Nat) (dirtyOk : Bool) :
    oscGrantStep obd s (.enterCache o bytes dirtyOk) =
      some (.enterCache (oscEnterCacheTry s.cli bytes dirtyOk).1, ⟨(oscEnterCacheTry s.cli bytes dirtyOk).2,
        s.objs.set o (if (oscEnterCacheTry s.cli bytes dirtyOk).1 = 1 then
          { og with resv := og.resv ++ [⟨bytes, bytes, none⟩] } else og)⟩) := by
  rw [oscGrantStep, hog]
  rfl

theorem oscGrantStep_find (hog : s.objs[o]? = some og) (hw : og.resv[k]? = some w) {index tmp : Nat}
    {olck : OscLock} {allocOk : Bool} {r : FindResult} {obj : OscObject}
    (heq : oscExtentFind obd og.obj index w.tmp olck allocOk = some (r, tmp, obj)) :
    oscGrantStep obd s (.find o k index olck allocOk) =
      some (.find r, { s with objs := s.objs.set o ⟨obj, og.resv.set k { w with tmp := tmp, ext := foundExt r w.ext }⟩ }) := by
  rw [oscGrantStep, hog]
  simp only [Option.bind_eq_bind, Option.bind_some, hw, heq]
  rfl

theorem oscGrantStep_expand (hog : s.objs[o]? = some og) (hw : og.resv[k]? = some w) {extId index tmp : Nat}
    {rc : Int} {obj : OscObject} (heq : oscExtentExpand obd og.obj extId index w.tmp = some (rc, tmp, obj)) :
    oscGrantStep obd s (.expand o k extId index) =
      some (.expand rc, { s with
        objs := s.objs.set o ⟨obj, og.resv.set k { w with tmp := tmp, ext := if rc = 0 then some extId else w.ext }⟩ }) := by
  rw [oscGrantStep, hog]
  simp only [Option.bind_eq_bind, Option.bind_some, hw, heq]
  rfl

theorem oscGrantStep_unreserve (hog : s.objs[o]? = some og) (hw : og.resv[k]? = some w) :
    oscGrantStep obd s (.unreserve o k) =
      some (.unreserve, ⟨oscUnreserveGrant s.cli w.grants w.tmp, s.objs.set o { og with resv := og.resv.eraseIdx k }⟩) := by
  rw [oscGrantStep, hog]
  simp only [Option.bind_eq_bind, Option.bind_some, hw]
  rfl

theorem oscGrantStep_release (hog : s.objs[o]? = some og) {extId grant : Nat} {obj : OscObject}
    (heq : oscExtentRelease obd og.obj extId = some (grant, obj)) :
    oscGrantStep obd s (.release o extId) =
      some (.release, ⟨if grant > 0 then oscUnreserveGrant s.cli 0 grant else s.cli,
        s.objs.set o { og with obj := obj }⟩) := by
  rw [oscGrantStep, hog]
  simp only [Option.bind_eq_bind, Option.bind_some, heq]
  rfl

theorem oscGrantStep_finish (hog : s.objs[o]? = some og) {extId lostGrant : Nat} {x : OscExtent} {obj : OscObject}
    (hx : lookupExtent og.obj extId = some x) (hrm : oscExtentRemove og.obj extId = some obj) :
    oscGrantStep obd s (.finish o extId lostGrant) =
      some (.finish, ⟨if x.oeGrants > 0 then oscFreeGrant obd s.cli lostGrant x.oeGrants else s.cli,
        s.objs.set o { og with obj := obj }⟩) := by
  rw [oscGrantStep, hog]
  simp only [Option.bind_eq_bind, Option.bind_some, hx, hrm]
  rfl

end Steps

/-! ## What a section may be and what it does -/

/-- The sections a client runs: a reservation on one of its objects of at
most what an `unsigned int` holds; a search or a growth, as
`osc_extent_find` and `osc_extent_expand` are called (`OscAllowed`), with
what is left of the reservation of a write that attached nothing yet, the
growth of an extent that one of its users holds for the write; the return
of what is left to a write; the release of an extent by a user that is not
a write in flight; the end of an extent that no write in flight holds, at
most all of whose grant is lost. -/
def GrantAllowed (obd : ClientObd) (s : GrantState) : GrantOp → Prop
  | .enterCache o bytes _ => o < s.objs.length ∧ bytes < 2 ^ 32
  | .find o k index olck allocOk => ∃ og ∈ s.objs[o]?, ∃ w ∈ og.resv[k]?, w.ext = none ∧
      OscAllowed obd og.obj (.find index w.tmp olck allocOk)
  | .expand o k extId index => ∃ og ∈ s.objs[o]?, ∃ w ∈ og.resv[k]?, w.ext = none ∧
      ∃ x ∈ og.obj.ooRoot, x.oeId = extId ∧ x.oeStart ≤ index ∧ index ≤ x.oeMaxEnd ∧ chunksize obd ≤ w.tmp ∧
        pendingOn og.resv extId < x.oeUsers
  | .unreserve o k => ∃ og ∈ s.objs[o]?, (og.resv[k]?).isSome
  | .release o extId => ∃ og ∈ s.objs[o]?, ∃ x ∈ og.obj.ooRoot, x.oeId = extId ∧ pendingOn og.resv extId < x.oeUsers
  | .finish o extId lostGrant => ∃ og ∈ s.objs[o]?, ∃ x ∈ og.obj.ooRoot, x.oeId = extId ∧
      pendingOn og.resv extId = 0 ∧ lostGrant ≤ x.oeGrants

instance (obd : ClientObd) (s : GrantState) : (op : GrantOp) → Decidable (GrantAllowed obd s op)
  | .enterCache o bytes _ => inferInstanceAs (Decidable (o < s.objs.length ∧ bytes < 2 ^ 32))
  | .find o k index olck allocOk => inferInstanceAs (Decidable (∃ og ∈ s.objs[o]?, ∃ w ∈ og.resv[k]?,
      w.ext = none ∧ OscAllowed obd og.obj (.find index w.tmp olck allocOk)))
  | .expand o k extId index => inferInstanceAs (Decidable (∃ og ∈ s.objs[o]?, ∃ w ∈ og.resv[k]?, w.ext = none ∧
      ∃ x ∈ og.obj.ooRoot, x.oeId = extId ∧ x.oeStart ≤ index ∧ index ≤ x.oeMaxEnd ∧ chunksize obd ≤ w.tmp ∧
        pendingOn og.resv extId < x.oeUsers))
  | .unreserve o k => inferInstanceAs (Decidable (∃ og ∈ s.objs[o]?, (og.resv[k]?).isSome))
  | .release o extId => inferInstanceAs (Decidable (∃ og ∈ s.objs[o]?, ∃ x ∈ og.obj.ooRoot, x.oeId = extId ∧
      pendingOn og.resv extId < x.oeUsers))
  | .finish o extId lostGrant => inferInstanceAs (Decidable (∃ og ∈ s.objs[o]?, ∃ x ∈ og.obj.ooRoot,
      x.oeId = extId ∧ pendingOn og.resv extId = 0 ∧ lostGrant ≤ x.oeGrants))

/-- What a section takes from `cl_dirty_grant`: the surplus a write gives
back, the taxes a release saves, the grant of an extent that ends. -/
def dirtyDebit (obd : ClientObd) (s : GrantState) : GrantOp → Nat
  | .unreserve o k => ((s.objs[o]?).bind (·.resv[k]?)).elim 0 fun w => w.tmp - w.grants
  | .release o extId => ((s.objs[o]?).bind fun og => oscExtentRelease obd og.obj extId).elim 0 (·.1)
  | .finish o extId _ => ((s.objs[o]?).bind fun og => lookupExtent og.obj extId).elim 0 (·.oeGrants)
  | _ => 0

/-- What a section takes from `cl_reserved_grant`: the reservation a write
gives back. -/
def reservedDebit (s : GrantState) : GrantOp → Nat
  | .unreserve o k => ((s.objs[o]?).bind (·.resv[k]?)).elim 0 (·.grants)
  | _ => 0

/-- Whether a section reserves grant. -/
def GrantOp.reserves : GrantOp → Bool
  | .enterCache .. => true
  | _ => false

/-- Whether a section gives grant up with `osc_free_grant`. -/
def GrantOp.freesGrant : GrantOp → Bool
  | .finish .. => true
  | _ => false

/-- What a section does to the counters: their sum stays unless it gives
grant up, a reservation that fails leaves the client as it was, and what it
takes from `cl_dirty_grant` or `cl_reserved_grant` is at most what they
hold. -/
structure StepCounters (obd : ClientObd) (s : GrantState) (op : GrantOp) (r : GrantRet) (s' : GrantState) :
    Prop where
  sum : op.freesGrant = false → grantSum s'.cli = grantSum s.cli
  fail : op.reserves = true → r ≠ .enterCache 1 → s' = s
  dirty : dirtyDebit obd s op ≤ s.cli.clDirtyGrant.toNat
  reserved : (reservedDebit s op : Int) ≤ s.cli.clReservedGrant

section Sections

variable {obd : ClientObd} {s : GrantState}

/-- A section that leaves the counters as they were. -/
theorem StepCounters.of_cli (h : GrantInv obd s) {op : GrantOp} {r : GrantRet} {s' : GrantState}
    (hcli : s'.cli = s.cli) (hres : op.reserves = false) (hd : dirtyDebit obd s op = 0)
    (hr : reservedDebit s op = 0) : StepCounters obd s op r s' where
  sum _ := by rw [hcli]
  fail h' := absurd (hres.symm.trans h') Bool.false_ne_true
  dirty := hd ▸ Nat.zero_le _
  reserved := by
    rw [hr]
    exact h.reserved_nonneg

/-- `osc_enter_cache_try`: a page that takes its grant is a new write in
flight with all of it left; otherwise nothing changes. -/
theorem GrantInv.enterCache (h : GrantInv obd s) {o bytes : Nat} (dirtyOk : Bool) (ho : o < s.objs.length)
    (hb : bytes < 2 ^ 32) : ∃ r s', oscGrantStep obd s (.enterCache o bytes dirtyOk) = some (r, s') ∧
      GrantInv obd s' ∧ s'.cli.total ≤ s.cli.total ∧ StepCounters obd s (.enterCache o bytes dirtyOk) r s' := by
  have hog : s.objs[o]? = some s.objs[o] := List.getElem?_eq_getElem ho
  refine ⟨_, _, oscGrantStep_enterCache obd s hog bytes dirtyOk, ?_⟩
  have hsum := oscEnterCacheTry_sum s.cli bytes dirtyOk
  by_cases hrc : (oscEnterCacheTry s.cli bytes dirtyOk).1 = 1
  · obtain ⟨hle, hcli⟩ := oscEnterCacheTry_ok s.cli hrc
    rw [if_pos hrc]
    have hL := h.objLedger hog
    have htotal : (oscEnterCacheTry s.cli bytes dirtyOk).2.total ≤ s.cli.total := by
      rw [hcli]
      exact (total_reserve s.cli hle (by omega) h.reserved_nonneg).le
    refine ⟨h.update hog (hL.addWrite bytes) ?_ ?_ htotal, htotal,
      ⟨fun _ => hsum, fun _ hr => absurd (by rw [hrc]) hr, Nat.zero_le _, h.reserved_nonneg⟩⟩
    · rw [hcli, GrantObject.reserved_addWrite]
      dsimp only
      omega
    · rw [hcli, GrantObject.attached_addWrite]
  · -- the reservation failed or was given back: the client is as it was
    rw [if_neg hrc, oscEnterCacheTry_fail s.cli hrc, List.set_getElem_self ho]
    exact ⟨h, le_rfl, ⟨fun _ => rfl, fun _ _ => rfl, Nat.zero_le _, h.reserved_nonneg⟩⟩

/-- `osc_extent_find` for a write that holds no extent: the write holds the
extent found, with the grant that took, or nothing changes. -/
theorem GrantInv.find (hcfg : ClientConfig obd) (h : GrantInv obd s) {o k index : Nat} {olck : OscLock}
    {allocOk : Bool} (hop : GrantAllowed obd s (.find o k index olck allocOk)) :
    ∃ r s', oscGrantStep obd s (.find o k index olck allocOk) = some (r, s') ∧ GrantInv obd s' ∧
      s'.cli.total ≤ s.cli.total ∧ StepCounters obd s (.find o k index olck allocOk) r s' := by
  obtain ⟨og, hog, w, hw, hext, hs, he, hg, hlock⟩ := hop
  have hL := h.objLedger hog
  obtain ⟨r, g', obj', heq, htree⟩ := oscExtentFind_spec hcfg hL.tree allocOk hs he hg hlock
  have hfl := oscExtentFind_ledger hcfg hL.tree hs he hg hlock heq
  refine ⟨_, _, oscGrantStep_find obd s hog hw heq, ?_, le_rfl, StepCounters.of_cli h rfl rfl rfl rfl⟩
  obtain ⟨hk, rfl⟩ := List.getElem?_eq_some_iff.mp hw
  cases r with
  | found id =>
    obtain ⟨hmv, hU, hT⟩ := hfl
    rw [hL.free _ (List.getElem_mem hk) hext] at hmv
    have hfound : foundExt (.found id) og.resv[k].ext = some id := rfl
    refine h.attach hog hk hext htree hmv (.inr hfound) (fun h' => absurd (hfound.symm.trans h') (by simp)) ?_ hT
    rw [hfound, if_pos rfl, hU]
    exact Nat.add_le_add_right (hL.held id) 1
  | conflict id =>
    obtain ⟨rfl, rfl⟩ := hfl
    exact h.keep hog hk rfl
  | err rc =>
    obtain ⟨rfl, rfl⟩ := hfl
    exact h.keep hog hk rfl

/-- `osc_extent_expand` of an extent a user holds for a write that holds no
extent: the write holds it, with the chunk it took, or nothing changes. -/
theorem GrantInv.expand (h : GrantInv obd s) {o k extId index : Nat}
    (hop : GrantAllowed obd s (.expand o k extId index)) :
    ∃ r s', oscGrantStep obd s (.expand o k extId index) = some (r, s') ∧ GrantInv obd s' ∧
      s'.cli.total ≤ s.cli.total ∧ StepCounters obd s (.expand o k extId index) r s' := by
  obtain ⟨og, hog, w, hw, hext, x, hx, rfl, hs, he, hg, hpend⟩ := hop
  have hL := h.objLedger hog
  obtain ⟨rc, g', obj', heq, htree⟩ := oscExtentExpand_spec hL.tree hx hs he hg
  obtain ⟨hmv, hU, hT, hrc⟩ := oscExtentExpand_ledger hL.tree hx heq
  refine ⟨_, _, oscGrantStep_expand obd s hog hw heq, ?_, le_rfl, StepCounters.of_cli h rfl rfl rfl rfl⟩
  obtain ⟨hk, rfl⟩ := List.getElem?_eq_some_iff.mp hw
  have hfr := hL.free _ (List.getElem_mem hk) hext
  rw [hfr] at hmv
  obtain ⟨pre, post, hsplit⟩ := List.append_of_mem hx
  have hux : extentUsers og.obj x.oeId = x.oeUsers := atId_split hL.tree.idsNodup hsplit
  refine h.attach hog hk hext htree hmv ?_ ?_ ?_ hT
  · by_cases h0 : rc = 0
    · exact .inr (if_pos h0)
    · exact .inl ((if_neg h0).trans hext)
  · intro hnone
    have h0 : rc ≠ 0 := fun h0 => by simp [h0] at hnone
    rw [hrc h0, hfr]
  · rw [hU, hux]
    split_ifs <;> omega

/-- `osc_unreserve_grant(cli, grants, tmp)`: the write is gone, its
reservation out of the reserved counter, and what it attached beyond it,
the taxes its merges saved, out of the dirty one. -/
theorem GrantInv.unreserve (h : GrantInv obd s) {o k : Nat} (hop : GrantAllowed obd s (.unreserve o k)) :
    ∃ r s', oscGrantStep obd s (.unreserve o k) = some (r, s') ∧ GrantInv obd s' ∧
      s'.cli.total ≤ s.cli.total ∧ StepCounters obd s (.unreserve o k) r s' := by
  obtain ⟨og, (hog : s.objs[o]? = some og), hsome⟩ := hop
  obtain ⟨w, hw⟩ := Option.isSome_iff_exists.mp hsome
  refine ⟨_, _, oscGrantStep_unreserve obd s hog hw, ?_⟩
  have hL := h.objLedger hog
  have hdebit : dirtyDebit obd s (.unreserve o k) = w.tmp - w.grants := by
    simp [dirtyDebit, hog, hw]
  have hrdebit : reservedDebit s (.unreserve o k) = w.grants := by
    simp [reservedDebit, hog, hw]
  obtain ⟨hk, rfl⟩ := List.getElem?_eq_some_iff.mp hw
  have hR : og.reserved = og.resv[k].grants + ({ og with resv := og.resv.eraseIdx k } : GrantObject).reserved :=
    Keyed.sum_map_eraseIdx _ hk
  have hA : og.attached = ((og.resv[k].grants : Int) - og.resv[k].tmp) +
      ({ og with resv := og.resv.eraseIdx k } : GrantObject).attached :=
    Keyed.sum_map_eraseIdx _ hk
  -- the reservation is in the reserved counter, the surplus in the dirty one
  have hr : (og.resv[k].grants : Int) ≤ s.cli.clReservedGrant := by
    have := h.reserved_ge hog
    omega
  have hd : og.resv[k].tmp - og.resv[k].grants ≤ s.cli.clDirtyGrant.toNat := by
    have h1 := h.dirty_ge hog
    have h2 := (hL.eraseWrite k).attached_le
    dsimp only at h2
    omega
  obtain ⟨hres, hdirty, htotal⟩ := oscUnreserveGrant_exact s.cli hr hd h.bound
  refine ⟨h.update hog (hL.eraseWrite k) ?_ ?_ htotal.le, htotal.le, ⟨fun _ => oscUnreserveGrant_sum _ _ _,
    fun h' => absurd h' Bool.false_ne_true, hdebit ▸ hd, hrdebit ▸ hr⟩⟩
  · rw [hres]
    omega
  · rw [hdirty]
    dsimp only
    omega

/-- `osc_extent_release` by a user that is not a write in flight, with
`osc_unreserve_grant(cli, 0, grant)` of the taxes its merges saved: they
leave the tree and the dirty counter together. -/
theorem GrantInv.release (h : GrantInv obd s) {o extId : Nat} (hop : GrantAllowed obd s (.release o extId)) :
    ∃ r s', oscGrantStep obd s (.release o extId) = some (r, s') ∧ GrantInv obd s' ∧
      s'.cli.total ≤ s.cli.total ∧ StepCounters obd s (.release o extId) r s' := by
  obtain ⟨og, (hog : s.objs[o]? = some og), x, hx, rfl, hpend⟩ := hop
  have hL := h.objLedger hog
  obtain ⟨g, obj', heq, htree⟩ := oscExtentRelease_spec hL.tree hx (by omega)
  obtain ⟨hmv, hU, hT⟩ := oscExtentRelease_ledger hL.tree hx heq
  refine ⟨_, _, oscGrantStep_release obd s hog heq, ?_⟩
  obtain ⟨pre, post, hsplit⟩ := List.append_of_mem hx
  have hux : extentUsers og.obj x.oeId = x.oeUsers := atId_split hL.tree.idsNodup hsplit
  -- the writes in flight keep what they hold
  have hL' : ObjLedger obd { og with obj := obj' } :=
    hL.retree htree hmv.toIdleFrame ((hL.backed _).trans (by have := hmv.gain; omega)) (by omega)
  have hA : ({ og with obj := obj' } : GrantObject).attached = og.attached := rfl
  have hdebit : dirtyDebit obd s (.release o x.oeId) = g := by
    simp [dirtyDebit, hog, heq]
  -- the taxes saved are in the dirty counter
  have hd : g ≤ s.cli.clDirtyGrant.toNat := by
    have h1 := h.dirty_ge hog
    have h2 := hL'.attached_le
    rw [hA] at h2
    dsimp only at h2
    omega
  by_cases hg0 : g > 0
  · obtain ⟨hres, hdirty, htotal⟩ :=
      oscUnreserveGrant_exact s.cli (show ((0 : Nat) : Int) ≤ s.cli.clReservedGrant by
        have := h.reserved_nonneg; omega) (by omega) h.bound
    rw [if_pos hg0]
    refine ⟨h.update hog hL' ?_ ?_ htotal.le, htotal.le, ⟨fun _ => oscUnreserveGrant_sum _ _ _,
      fun h' => absurd h' Bool.false_ne_true, hdebit ▸ hd, h.reserved_nonneg⟩⟩
    · rw [hres, show ({ og with obj := obj' } : GrantObject).reserved = og.reserved from rfl]
      omega
    · rw [hdirty, hA]
      dsimp only
      omega
  · rw [if_neg hg0]
    refine ⟨h.update hog hL' rfl ?_ le_rfl, le_rfl, ⟨fun _ => rfl, fun h' => absurd h' Bool.false_ne_true,
      hdebit ▸ hd, h.reserved_nonneg⟩⟩
    rw [hA]
    dsimp only
    omega

/-- `osc_free_grant` of an extent that no write in flight holds, and
`osc_extent_remove`: its grant leaves the tree and the dirty counter
together. -/
theorem GrantInv.finish (h : GrantInv obd s) {o extId lostGrant : Nat}
    (hop : GrantAllowed obd s (.finish o extId lostGrant)) :
    ∃ r s', oscGrantStep obd s (.finish o extId lostGrant) = some (r, s') ∧ GrantInv obd s' ∧
      s'.cli.total ≤ s.cli.total ∧ StepCounters obd s (.finish o extId lostGrant) r s' := by
  obtain ⟨og, (hog : s.objs[o]? = some og), x, hx, rfl, hpend, hlost⟩ := hop
  have hL := h.objLedger hog
  obtain ⟨pre, post, hsplit⟩ := List.append_of_mem hx
  have hlook := lookupExtent_split hL.tree.idsNodup hsplit
  have hrm : oscExtentRemove og.obj x.oeId = some (og.obj.eraseExtent x.oeId) := by
    rw [oscExtentRemove, hlook]
    rfl
  refine ⟨_, _, oscGrantStep_finish obd s hog hlook hrm, ?_⟩
  have hT := treeGrants_eraseExtent hL.tree.idsNodup hsplit
  have hL' : ObjLedger obd { og with obj := og.obj.eraseExtent x.oeId } :=
    hL.retree (hL.tree.eraseExtent x.oeId) (IdleFrame.eraseExtent x.oeId)
      (by rw [show attachedOn og.resv x.oeId = 0 from Keyed.filed_eq_zero_of_count _ _ hpend]; exact Nat.zero_le _)
      (hpend ▸ Nat.zero_le _)
  have hA : ({ og with obj := og.obj.eraseExtent x.oeId } : GrantObject).attached = og.attached := rfl
  have hdebit : dirtyDebit obd s (.finish o x.oeId lostGrant) = x.oeGrants := by
    simp [dirtyDebit, hog, hlook]
  -- the grant of the extent is in the dirty counter
  have hd : x.oeGrants ≤ s.cli.clDirtyGrant.toNat := by
    have h1 := h.dirty_ge hog
    have h2 := hL'.attached_le
    rw [hA] at h2
    dsimp only at h2
    omega
  have hfree : ∀ h' : (GrantOp.finish o x.oeId lostGrant).freesGrant = false, False := by
    simp [GrantOp.freesGrant]
  by_cases hg0 : x.oeGrants > 0
  · obtain ⟨hres, hdirty, htotal⟩ := oscFreeGrant_exact s.cli obd hd hlost h.bound
    have hle : (oscFreeGrant obd s.cli lostGrant x.oeGrants).total ≤ s.cli.total := by omega
    rw [if_pos hg0]
    refine ⟨h.update hog hL' ?_ ?_ hle, hle, ⟨fun h' => (hfree h').elim,
      fun h' => absurd h' Bool.false_ne_true, hdebit ▸ hd, h.reserved_nonneg⟩⟩
    · rw [hres]
      rfl
    · rw [hA]
      dsimp only
      omega
  · rw [if_neg hg0]
    refine ⟨h.update hog hL' rfl ?_ le_rfl, le_rfl, ⟨fun h' => (hfree h').elim,
      fun h' => absurd h' Bool.false_ne_true, hdebit ▸ hd, h.reserved_nonneg⟩⟩
    rw [hA]
    dsimp only
    omega

/-- Every section the client may run returns, keeps the accounts, and moves
the counters as `StepCounters` says. -/
theorem oscGrantStep_spec (hcfg : ClientConfig obd) (h : GrantInv obd s) {op : GrantOp}
    (hop : GrantAllowed obd s op) :
    ∃ r s', oscGrantStep obd s op = some (r, s') ∧ GrantInv obd s' ∧ s'.cli.total ≤ s.cli.total ∧
      StepCounters obd s op r s' := by
  cases op with
  | enterCache o bytes dirtyOk => exact h.enterCache dirtyOk hop.1 hop.2
  | find o k index olck allocOk => exact h.find hcfg hop
  | expand o k extId index => exact h.expand hop
  | unreserve o k => exact h.unreserve hop
  | release o extId => exact h.release hop
  | finish o extId lostGrant => exact h.finish hop

/-- A client as it starts keeps the accounts. -/
theorem GrantInv.init (obd : ClientObd) (avail : UInt64) (n : Nat) : GrantInv obd (oscGrantInit avail n) where
  objs og hog := by
    rw [List.eq_of_mem_replicate hog]
    exact ⟨OscInv.empty obd 0, fun _ hw => (by cases hw), fun _ => Nat.zero_le _, fun _ => Nat.zero_le _⟩
  reserved := by simp [oscGrantInit, GrantObject.reserved]
  dirty := by simp [oscGrantInit, GrantObject.attached, treeGrants]
  bound := by
    have := avail.toNat_lt
    simp only [ClientGrant.total, oscGrantInit, UInt64.toNat_zero, Int.toNat_zero]
    omega

end Sections

/-! ## Runs -/

/-- The states a client reaches from its start by sections it may run. -/
inductive GrantReachable (obd : ClientObd) : GrantState → Prop
  | init (avail : UInt64) (n : Nat) : GrantReachable obd (oscGrantInit avail n)
  | step {s s' : GrantState} {op : GrantOp} {r : GrantRet} : GrantReachable obd s → GrantAllowed obd s op →
      oscGrantStep obd s op = some (r, s') → GrantReachable obd s'

section Runs

variable {obd : ClientObd}

/-- Every state a client reaches keeps the accounts: by induction on the
run, each section keeping them (`oscGrantStep_spec`). -/
theorem GrantReachable.inv (hcfg : ClientConfig obd) {s : GrantState} (hs : GrantReachable obd s) :
    GrantInv obd s := by
  induction hs with
  | init avail n => exact GrantInv.init obd avail n
  | step _ hop hstep ih =>
    obtain ⟨r', s'', hstep', hinv, -, -⟩ := oscGrantStep_spec hcfg ih hop
    rw [hstep, Option.some.injEq, Prod.mk.injEq] at hstep'
    rw [hstep'.2]
    exact hinv

/-- A run of sections the client may run, from a reached state, ends in a
reached state. -/
theorem GrantReachable.of_run :
    ∀ (ops : List GrantOp) {s s' : GrantState} {rs : List GrantRet},
      StepRun.AllowedRun (oscGrantStep obd) (GrantAllowed obd) s ops → GrantReachable obd s →
      StepRun.run (oscGrantStep obd) s ops = some (rs, s') → GrantReachable obd s'
  | [], _, _, _, _, hs, hrun => by
    simp only [StepRun.run_nil, Option.some.injEq, Prod.mk.injEq] at hrun
    rw [← hrun.2]
    exact hs
  | op :: ops, s, s', rs, hall, hs, hrun => by
    obtain ⟨⟨r, s₁⟩, hstep, hrest⟩ := Option.bind_eq_some_iff.mp hrun
    obtain ⟨⟨rs₁, s₂⟩, hrun₁, heq⟩ := Option.map_eq_some_iff.mp hrest
    simp only [Prod.mk.injEq] at heq
    rw [← heq.2]
    exact GrantReachable.of_run ops (hall.2 r s₁ hstep) (.step hs hall.1 hstep) hrun₁

/-- Every section a client runs from a state it reached returns; the sum of
its four counters stays unless the section gives grant up with
`osc_free_grant`; a reservation that fails leaves the client as it was; no
section takes from `cl_dirty_grant` or `cl_reserved_grant` more than they
hold, the surplus a write gives back after a merge saved a tax included;
and after it `cl_reserved_grant` is nonnegative, the counters add up below
`2^64`, and the client is in a state it reached. -/
theorem osc_grant_counters_never_wrap (hcfg : ClientConfig obd) {s : GrantState} (hs : GrantReachable obd s)
    {op : GrantOp} (hop : GrantAllowed obd s op) :
    ∃ r s', oscGrantStep obd s op = some (r, s') ∧ StepCounters obd s op r s' ∧
      0 ≤ s'.cli.clReservedGrant ∧ s'.cli.total < 2 ^ 64 ∧ GrantReachable obd s' := by
  obtain ⟨r, s', hstep, hinv, -, hc⟩ := oscGrantStep_spec hcfg (hs.inv hcfg) hop
  exact ⟨r, s', hstep, hc, hinv.reserved_nonneg, hinv.bound, .step hs hop hstep⟩

/-- A client that starts with `avail` bytes of grant never holds more:
every run of sections it may run returns, and after it the four counters
add up to at most `avail`, each section only moving grant between them or
giving it up. With less than `2^63` bytes granted, `cl_reserved_grant`, a
`long`, then holds its value without wrapping, as the `Int` of the model
takes for granted. -/
theorem osc_grant_reserved_fits_long (hcfg : ClientConfig obd) {avail : UInt64} (havail : avail.toNat < 2 ^ 63)
    (n : Nat) (ops : List GrantOp)
    (hall : StepRun.AllowedRun (oscGrantStep obd) (GrantAllowed obd) (oscGrantInit avail n) ops) :
    ∃ rs s, StepRun.run (oscGrantStep obd) (oscGrantInit avail n) ops = some (rs, s) ∧ s.cli.total ≤ avail.toNat ∧
      0 ≤ s.cli.clReservedGrant ∧ narrowLong s.cli.clReservedGrant = s.cli.clReservedGrant := by
  -- the accounts and the bound by `avail` go together along the run
  have hstep : ∀ s op, GrantAllowed obd s op → GrantInv obd s ∧ s.cli.total ≤ avail.toNat →
      ∃ r s', oscGrantStep obd s op = some (r, s') ∧ True ∧ GrantInv obd s' ∧ s'.cli.total ≤ avail.toNat := by
    rintro s op hop ⟨hinv, hle⟩
    obtain ⟨r, s', hs, hinv', hdec, -⟩ := oscGrantStep_spec hcfg hinv hop
    exact ⟨r, s', hs, trivial, hinv', hdec.trans hle⟩
  have hstart : (oscGrantInit avail n).cli.total ≤ avail.toNat := by
    simp [ClientGrant.total, oscGrantInit]
  obtain ⟨rs, s, hrun, -, hinv, hle⟩ := StepRun.run_total (oscGrantStep obd) (GrantAllowed obd)
    (fun s => GrantInv obd s ∧ s.cli.total ≤ avail.toNat) (fun _ => True) hstep ops _ hall
    ⟨GrantInv.init obd avail n, hstart⟩
  have h0 := hinv.reserved_nonneg
  have hres : s.cli.clReservedGrant.toNat ≤ s.cli.total := by
    unfold ClientGrant.total
    omega
  exact ⟨rs, s, hrun, hle, h0, narrowLong_of_mem (by omega) (by omega)⟩

/-- A megabyte of grant, a page written with its reservation and a tax of
two pages, and the rest given back. -/
theorem osc_grant_reserved_fits_long_one_page :
    ∃ rs s, StepRun.run (oscGrantStep ⟨12, 8192, 16, 4⟩) (oscGrantInit 1000000 1)
        [.enterCache 0 12288 true, .find 0 0 0 ⟨1, 0, 1000⟩ true, .unreserve 0 0] = some (rs, s) ∧
      s.cli.total ≤ (1000000 : UInt64).toNat ∧ 0 ≤ s.cli.clReservedGrant ∧
      narrowLong s.cli.clReservedGrant = s.cli.clReservedGrant :=
  osc_grant_reserved_fits_long ⟨by decide, by decide, by decide⟩ (by decide) 1 _
    (StepRun.allowedRun_of_allowedRunB _ _ _ _ (by decide))

/-- Pages 0, 2 and 1 written one by one, with one-page chunks and a tax of
two pages: the write of page 1 joins the two cached extents, the merge
saves more than the chunk the write took, and the write gives back 4096
bytes more than it reserved, which the dirty counter holds. -/
theorem osc_grant_merge_surplus_covered :
    ClientConfig ⟨12, 8192, 16, 4⟩ ∧ ∃ s, GrantReachable ⟨12, 8192, 16, 4⟩ s ∧
      GrantAllowed ⟨12, 8192, 16, 4⟩ s (.unreserve 0 0) ∧ dirtyDebit ⟨12, 8192, 16, 4⟩ s (.unreserve 0 0) = 4096 ∧
      ∃ r s', oscGrantStep ⟨12, 8192, 16, 4⟩ s (.unreserve 0 0) = some (r, s') ∧
        StepCounters ⟨12, 8192, 16, 4⟩ s (.unreserve 0 0) r s' ∧ 0 ≤ s'.cli.clReservedGrant ∧
        s'.cli.total < 2 ^ 64 ∧ GrantReachable ⟨12, 8192, 16, 4⟩ s' := by
  have hcfg : ClientConfig ⟨12, 8192, 16, 4⟩ := ⟨by decide, by decide, by decide⟩
  have hrun : StepRun.run (oscGrantStep ⟨12, 8192, 16, 4⟩) (oscGrantInit 1000000 1)
      [.enterCache 0 12288 true, .find 0 0 0 ⟨1, 0, 1000⟩ true, .unreserve 0 0, .release 0 0,
        .enterCache 0 12288 true, .find 0 0 2 ⟨1, 0, 1000⟩ true, .unreserve 0 0, .release 0 1,
        .enterCache 0 12288 true, .find 0 0 1 ⟨1, 0, 1000⟩ true] =
      some ([.enterCache 1, .find (.found 0), .unreserve, .release, .enterCache 1, .find (.found 1), .unreserve,
          .release, .enterCache 1, .find (.found 0)],
        ⟨⟨963136, 12288, 24576, 0⟩,
          [⟨⟨[⟨0, 1, .active, false, false, 20480, 0, 2, 3, ⟨1, 0, 1000⟩, 4⟩], 2⟩, [⟨12288, 16384, some 0⟩]⟩]⟩) := by
    decide
  have hs := GrantReachable.of_run _ (StepRun.allowedRun_of_allowedRunB _ _ _ _ (by decide)) (.init 1000000 1) hrun
  exact ⟨hcfg, _, hs, by decide, by decide, osc_grant_counters_never_wrap hcfg hs (by decide)⟩

end Runs

end Lustre.Osc
