import Mathlib
import Lustre.Fld.Insert
import Lustre.Lib.Run

/-! # The FLD cache against a last-writer-wins map

What the cache is for: it remembers the ranges the FLD has answered with,
and a lookup of `seq` that hits should give the location of the latest
range inserted that contains `seq` (`lwwLookup`). The cache refines that map
(`Refines`) when every answer it gives is the map's: it may forget ranges
(shrinking, `fld_cache_delete_nolock`) but never answers wrongly.

The model of the cache's use is a step function over operations
(`fldCacheStep`), and the cache paired with the list of inserted ranges
(`fldLwwStep`). For MDT ranges with every allocation granted, every run keeps
the cache tidy and refining the map, and a run fails only at the `LASSERT`
of case 3 (`fld_cache_mdt_run_outcome`). The `LASSERT` does fire, on a range
that ends where an entry of another index ends
(`fld_cache_insert_case3_lbug`).
-/

namespace Lustre.Fld

/-! ## The map the cache stands for -/

/-- The location of `seq` in the FLD as the inserted ranges give it, the
latest first: that of the latest range containing it. -/
def lwwLookup : List LuSeqRange → UInt64 → Option (UInt32 × UInt32)
  | [], _ => none
  | r :: hist, seq => (rangeCover r seq).or (lwwLookup hist seq)

/-- Every answer the entries give is the map's. -/
def Refines (hist : List LuSeqRange) (l : List FldCacheEntry) : Prop :=
  ∀ seq v, coverOf l seq = some v → lwwLookup hist seq = some v

theorem Refines.nil (l : List FldCacheEntry) (hl : l = []) (hist : List LuSeqRange) : Refines hist l := by
  subst hl
  intro seq v h
  cases h

/-- Entries that answer as `fNew` in front of `l` refine the map with the
range of `fNew` inserted last. -/
theorem Refines.insert {hist : List LuSeqRange} {l l' : List FldCacheEntry} {fNew : FldCacheEntry}
    (h : Refines hist l) (hcov : ∀ seq, coverOf l' seq = coverOf (fNew :: l) seq) :
    Refines (fNew.fceRange :: hist) l' := by
  intro seq v hv
  rw [hcov, coverOf_cons] at hv
  rw [lwwLookup]
  cases hr : rangeCover fNew.fceRange seq with
  | some w =>
    -- inside the new range both answer with it
    rw [hr, Option.some_or] at hv
    rw [Option.some_or]
    exact hv
  | none =>
    rw [hr, Option.none_or] at hv
    rw [Option.none_or]
    exact h seq v hv

/-- The first entry containing `seq` gives its answer. -/
theorem coverOf_eq_some {l : List FldCacheEntry} {seq : UInt64} {v : UInt32 × UInt32}
    (h : coverOf l seq = some v) :
    ∃ e ∈ l, luSeqRangeWithin e.fceRange seq = true ∧ v = (e.fceRange.lsrIndex, e.fceRange.lsrFlags) := by
  induction l with
  | nil => cases h
  | cons e l ih =>
    rw [coverOf_cons] at h
    by_cases hw : luSeqRangeWithin e.fceRange seq = true
    · rw [rangeCover, if_pos hw, Option.some_or] at h
      exact ⟨e, by simp, hw, (Option.some.inj h).symm⟩
    · rw [rangeCover, if_neg hw, Option.none_or] at h
      obtain ⟨x, hx, hxw, hv⟩ := ih h
      exact ⟨x, List.mem_cons_of_mem e hx, hxw, hv⟩

/-- In sorted entries the one containing `seq` gives the answer. -/
theorem coverOf_of_mem {l : List FldCacheEntry} {e : FldCacheEntry} {seq : UInt64} (hs : l.Pairwise Before)
    (he : e ∈ l) (hw : luSeqRangeWithin e.fceRange seq = true) :
    coverOf l seq = some (e.fceRange.lsrIndex, e.fceRange.lsrFlags) := by
  induction l with
  | nil => cases he
  | cons x l ih =>
    rw [coverOf_cons]
    rcases List.mem_cons.mp he with rfl | he
    · rw [rangeCover, if_pos hw, Option.some_or]
    · -- `x` ends before `e` starts, so before `seq`
      have hxe : Before x e := List.rel_of_pairwise_cons hs he
      have hnot : ¬ luSeqRangeWithin x.fceRange seq = true := by
        rw [within_iff_lo_hi]
        have := (within_iff_lo_hi e seq).mp hw
        unfold Before at hxe
        omega
      rw [rangeCover, if_neg hnot, Option.none_or]
      exact ih hs.of_cons he

/-- Forgetting entries of a sorted list keeps the refinement. -/
theorem Refines.sublist {hist : List LuSeqRange} {l l' : List FldCacheEntry} (h : Refines hist l)
    (hs : l.Pairwise Before) (hsub : l'.Sublist l) : Refines hist l' := by
  intro seq v hv
  obtain ⟨e, he, hw, rfl⟩ := coverOf_eq_some hv
  exact h seq _ (coverOf_of_mem hs (hsub.subset he) hw)

/-! ## Lookup and deletion -/

/-- A lookup that returns 0 returns an entry containing `seq`, and the answer
of the list for it. -/
theorem fldCacheLookupWalk_eq_zero {seq : UInt64} {prev : Option LuSeqRange} {range r : LuSeqRange}
    {l : List FldCacheEntry} (h : fldCacheLookupWalk seq prev range l = (0, r)) :
    luSeqRangeWithin r seq = true ∧ coverOf l seq = some (r.lsrIndex, r.lsrFlags) := by
  induction l generalizing prev with
  | nil =>
    simp only [fldCacheLookupWalk, Prod.mk.injEq] at h
    exact absurd h.1 (by decide)
  | cons e l ih =>
    rw [fldCacheLookupWalk] at h
    by_cases h1 : e.fceRange.lsrStart > seq
    · rw [if_pos h1] at h
      simp only [Prod.mk.injEq] at h
      exact absurd h.1 (by decide)
    rw [if_neg h1] at h
    rw [coverOf_cons]
    by_cases h2 : luSeqRangeWithin e.fceRange seq = true
    · -- the first entry containing `seq`
      rw [if_pos h2] at h
      simp only [Prod.mk.injEq] at h
      rw [← h.2]
      exact ⟨h2, by rw [rangeCover, if_pos h2, Option.some_or]⟩
    · rw [if_neg h2] at h
      obtain ⟨hw, hcov⟩ := ih h
      exact ⟨hw, by rw [rangeCover, if_neg h2, Option.none_or, hcov]⟩

/-- `fld_cache_lookup` that returns 0: `*range` contains `seq` and is the
cache's answer for it. -/
theorem fldCacheLookup_eq_zero {cache : FldCache} {seq : UInt64} {range r : LuSeqRange}
    (h : fldCacheLookup cache seq range = (0, r)) :
    luSeqRangeWithin r seq = true ∧ coverOf cache.fciEntries seq = some (r.lsrIndex, r.lsrFlags) :=
  fldCacheLookupWalk_eq_zero h

/-- `fld_cache_delete_nolock` only deletes entries. -/
theorem fldCacheDeleteNolock_sublist (cache : FldCache) (range : LuSeqRange) :
    (fldCacheDeleteNolock cache range).fciEntries.Sublist cache.fciEntries ∧
      (fldCacheDeleteNolock cache range).fciNextId = cache.fciNextId := by
  unfold fldCacheDeleteNolock
  split
  · exact ⟨entryDelete_sublist _ _, rfl⟩
  · exact ⟨List.Sublist.refl _, rfl⟩

/-! ## Runs -/

/-- An operation on the cache: `fld_cache_insert`, with whether the entry is
created and whether a hole punched gets its third entry;
`fld_cache_delete_nolock`; `fld_cache_lookup`. -/
inductive FldOp where
  | insert (range : LuSeqRange) (createOk allocOk : Bool)
  | delete (range : LuSeqRange)
  | lookup (seq : UInt64)
  deriving DecidableEq, Repr

/-- One operation: the return code with the range it gives back (the range
inserted or deleted, or `*range` of a lookup, which starts as the zero
range), and the cache after it. -/
def fldCacheStep (cache : FldCache) : FldOp → Option ((Int × LuSeqRange) × FldCache)
  | .insert range createOk allocOk =>
    (fldCacheInsert cache range createOk allocOk).map fun (rc, c) => ((rc, range), c)
  | .delete range => some ((0, range), fldCacheDeleteNolock cache range)
  | .lookup seq => some (fldCacheLookup cache seq ⟨0, 0, 0, 0⟩, cache)

/-- The cache with the ranges inserted so far, the latest first: an
insertion that returns 0 adds its range. -/
def fldLwwStep (s : FldCache × List LuSeqRange) (op : FldOp) :
    Option ((Int × LuSeqRange) × (FldCache × List LuSeqRange)) :=
  (fldCacheStep s.1 op).map fun (out, c) =>
    (out, (c, match op with
      | .insert range _ _ => if out.1 = 0 then range :: s.2 else s.2
      | _ => s.2))

/-- The operations the positive results are about: insertions of non-empty
MDT ranges whose holes get their entries, and any deletion or lookup. -/
def MdtOp : FldOp → Prop
  | .insert range _ allocOk => range.lsrFlags = luSeqRangeMdt ∧ range.lsrStart < range.lsrEnd ∧ allocOk = true
  | .delete _ => True
  | .lookup _ => True

instance (op : FldOp) : Decidable (MdtOp op) :=
  match op with
  | .insert _ _ _ => inferInstanceAs (Decidable (_ ∧ _ ∧ _))
  | .delete _ => inferInstanceAs (Decidable True)
  | .lookup _ => inferInstanceAs (Decidable True)

/-- The invariant of runs: the cache is tidy and refines the map. -/
def LwwInv (s : FldCache × List LuSeqRange) : Prop := CacheInv s.1 ∧ Refines s.2 s.1.fciEntries

theorem LwwInv.init {size threshold : Nat} {c : FldCache} (h : fldCacheInit size threshold = some c) :
    LwwInv (c, []) := by
  unfold fldCacheInit at h
  split at h
  · cases h
  · cases h
    exact ⟨⟨⟨List.Pairwise.nil, fun e he => (by cases he)⟩, fun e he => (by cases he), fun e he => (by cases he)⟩,
      Refines.nil [] rfl []⟩

/-- One MDT operation keeps the invariant. -/
theorem fldLwwStep_inv {s s' : FldCache × List LuSeqRange} {op : FldOp} {out : Int × LuSeqRange}
    (hop : MdtOp op) (hs : LwwInv s) (h : fldLwwStep s op = some (out, s')) : LwwInv s' := by
  obtain ⟨⟨out0, c⟩, hstep, heq⟩ := Option.map_eq_some_iff.mp h
  simp only [Prod.mk.injEq] at heq
  obtain ⟨rfl, rfl⟩ := heq
  have hsorted : s.1.fciEntries.Pairwise Before := hs.1.tidy.1.imp Apart.before
  cases op with
  | insert range createOk allocOk =>
    obtain ⟨hfl, hne, rfl⟩ := hop
    obtain ⟨⟨rc, c'⟩, hins, hout⟩ := Option.map_eq_some_iff.mp hstep
    simp only [Prod.mk.injEq] at hout
    obtain ⟨rfl, rfl⟩ := hout
    rcases (fldCacheInsert_spec hs.1 hfl hne).2 rc c' hins with ⟨hrc, rfl⟩ | ⟨hrc, hcache⟩
    · -- `-ENOMEM`: nothing changes
      have hne0 : rc ≠ 0 := by rw [hrc]; decide
      simp only [if_neg hne0]
      exact hs
    · -- the range is inserted into the shrunk cache, and joins the map
      simp only [hrc, if_true]
      have hshrunk := hs.2.sublist hsorted (fldCacheShrink_sublist s.1).1
      exact ⟨hcache.1, hshrunk.insert hcache.2⟩
  | delete range =>
    simp only [fldCacheStep, Option.some.injEq, Prod.mk.injEq] at hstep
    obtain ⟨-, rfl⟩ := hstep
    obtain ⟨hsub, hn⟩ := fldCacheDeleteNolock_sublist s.1 range
    exact ⟨hs.1.of_sublist hsub hn, hs.2.sublist hsorted hsub⟩
  | lookup seq =>
    simp only [fldCacheStep, Option.some.injEq, Prod.mk.injEq] at hstep
    obtain ⟨-, rfl⟩ := hstep
    exact hs

/-- A lookup in a cache that refines the map: when it returns 0, `*range`
contains the sequence and has the location of the latest range inserted
that contains it. -/
theorem LwwInv.lookup {s : FldCache × List LuSeqRange} (hs : LwwInv s) {seq : UInt64} {range r : LuSeqRange}
    (h : fldCacheLookup s.1 seq range = (0, r)) :
    luSeqRangeWithin r seq = true ∧ lwwLookup s.2 seq = some (r.lsrIndex, r.lsrFlags) := by
  obtain ⟨hw, hcov⟩ := fldCacheLookup_eq_zero h
  exact ⟨hw, hs.2 seq _ hcov⟩

/-- Every run of MDT operations from a new cache keeps its entries sorted,
disjoint and merged, and every lookup that returns 0 after it gives a range
containing the sequence, with the location of the latest range inserted
that contains it. -/
theorem mdtRun_refines {size threshold : Nat} {c0 : FldCache} (hinit : fldCacheInit size threshold = some c0)
    {ops : List FldOp} (hops : ∀ op ∈ ops, MdtOp op) {outs : List (Int × LuSeqRange)} {s : FldCache × List LuSeqRange}
    (h : StepRun.run fldLwwStep (c0, []) ops = some (outs, s)) :
    Tidy s.1.fciEntries ∧ ∀ seq range r, fldCacheLookup s.1 seq range = (0, r) →
      luSeqRangeWithin r seq = true ∧ lwwLookup s.2 seq = some (r.lsrIndex, r.lsrFlags) := by
  have hinv : LwwInv s :=
    StepRun.run_inv fldLwwStep (fun _ op => MdtOp op) LwwInv (fun _ op _ _ hop hs hstep => fldLwwStep_inv hop hs hstep)
      ops (c0, []) outs s (StepRun.allowedRun_of_forall fldLwwStep MdtOp ops _ hops) (LwwInv.init hinit) h
  exact ⟨hinv.1.tidy, fun seq range r hl => hinv.lookup hl⟩

/-- A step fails only at the `LASSERT` of case 3. -/
theorem fldLwwStep_eq_none {s : FldCache × List LuSeqRange} {op : FldOp} (hop : MdtOp op) (hs : LwwInv s)
    (h : fldLwwStep s op = none) :
    ∃ range createOk, op = .insert range createOk true ∧ createOk = true ∧
      ∃ i curr, fldCacheInsertPos range 0 none (fldCacheShrink s.1).fciEntries = .overlap i curr ∧ Case3Lbug curr range := by
  rw [fldLwwStep, Option.map_eq_none_iff] at h
  cases op with
  | insert range createOk allocOk =>
    obtain ⟨hfl, hne, rfl⟩ := hop
    rw [fldCacheStep, Option.map_eq_none_iff] at h
    exact ⟨range, createOk, rfl, ((fldCacheInsert_spec hs.1 hfl hne).1.mp h)⟩
  | delete range => cases h
  | lookup seq => cases h

/-- Every run of MDT operations from a new cache that fails, fails at an
insertion whose walk stops at an entry of another index that starts before
the new range and ends where it ends: the `LASSERT` of case 3. -/
theorem mdtRun_fails {size threshold : Nat} {c0 : FldCache} (hinit : fldCacheInit size threshold = some c0)
    {ops : List FldOp} (hops : ∀ op ∈ ops, MdtOp op) (h : StepRun.run fldLwwStep (c0, []) ops = none) :
    ∃ s range, LwwInv s ∧ FldOp.insert range true true ∈ ops ∧
      ∃ i curr, fldCacheInsertPos range 0 none (fldCacheShrink s.1).fciEntries = .overlap i curr ∧ Case3Lbug curr range := by
  obtain ⟨s', op, hmem, hinv, hop, hnone⟩ := StepRun.run_eq_none fldLwwStep (fun _ op => MdtOp op) LwwInv
    (fun _ op _ _ hop hs hstep => fldLwwStep_inv hop hs hstep) ops (c0, [])
    (StepRun.allowedRun_of_forall fldLwwStep MdtOp ops _ hops) (LwwInv.init hinit) h
  obtain ⟨range, createOk, rfl, rfl, hbug⟩ := fldLwwStep_eq_none hop hinv hnone
  exact ⟨s', range, hinv, hmem, hbug⟩

/-- What a run of MDT operations from `c0` ends in: a tidy cache that
refines the last-writer-wins map, or the `LASSERT` of case 3 of one of its
insertions. -/
def MdtRunOutcome (c0 : FldCache) (ops : List FldOp) : Prop :=
  (∀ outs s, StepRun.run fldLwwStep (c0, []) ops = some (outs, s) →
    Tidy s.1.fciEntries ∧ ∀ seq range r, fldCacheLookup s.1 seq range = (0, r) →
      luSeqRangeWithin r seq = true ∧ lwwLookup s.2 seq = some (r.lsrIndex, r.lsrFlags)) ∧
  (StepRun.run fldLwwStep (c0, []) ops = none →
    ∃ s range, LwwInv s ∧ FldOp.insert range true true ∈ ops ∧
      ∃ i curr, fldCacheInsertPos range 0 none (fldCacheShrink s.1).fciEntries = .overlap i curr ∧
        Case3Lbug curr range)

/-- Two MDT insertions into a new cache trip the `LASSERT` of case 3: with
`[0, 100)` on index 1, inserting `[50, 100)` on index 2 reaches case 3 of
`fld_cache_overlap_handle` with `new_start > c_start`. -/
theorem fld_cache_insert_case3_lbug :
    (∀ op ∈ [FldOp.insert ⟨0, 100, 1, 0⟩ true true, .insert ⟨50, 100, 2, 0⟩ true true], MdtOp op) ∧
      ((fldCacheInit 4 1).bind fun c =>
        StepRun.run fldCacheStep c [.insert ⟨0, 100, 1, 0⟩ true true, .insert ⟨50, 100, 2, 0⟩ true true]) = none := by
  decide

end Lustre.Fld
