import Mathlib
import Lustre.Lib.Run
import Lustre.Osc.Cache.Tree

/-! # Every extent call keeps the tree

Under a client configuration with chunks of whole pages, a positive RPC size
and chunks no larger than the server's extent limit (`ClientConfig`), every
call of `osc_extent_find`, `osc_extent_expand`, `osc_extent_release` and
`__osc_extent_remove` that its caller may make (`OscAllowed`) returns
without tripping an assertion and keeps `OscInv`; so does every run of them
(`osc_extent_run_invariants`).

The heart is the loop of `osc_extent_find`. A page strictly inside a chunk is
the start of no extent but one that starts at its lock's first page; so an
extent that starts after the new extent's start starts after its end
(`NewExtent.start_gt_end`), only the extent the search stops at can hold the
page or take the new extent, and when the loop runs out the new extent
overlaps nothing. Merges join two extents of one lock and one window that
meet at a chunk edge (`merge_meet`), so the merged extent keeps its shape
and its grant (`ExtentShape.join`, `Charged.join`).
-/

namespace Lustre.Osc

/-- What the client's configuration guarantees: chunks of whole pages, a
positive RPC size, and chunks no larger than an extent may be. -/
structure ClientConfig (cli : ClientObd) : Prop where
  chunkbits : pageShift ≤ cli.clChunkbits
  maxPages : 0 < cli.clMaxPagesPerRpc
  chunkFits : 2 ^ ppcBits cli ≤ cli.clMaxExtentPages

section Merge

variable {cli : ClientObd} {a b : OscExtent}

theorem ppc_pos (cli : ClientObd) : 0 < 2 ^ ppcBits cli := Nat.two_pow_pos _

/-- A page strictly inside a chunk starts no extent but one that starts at
its lock's first page. -/
theorem ExtentShape.start_eq_of_interior (ha : ExtentShape cli a) {c : Nat}
    (h1 : c * 2 ^ ppcBits cli < a.oeStart) (h2 : a.oeStart < c * 2 ^ ppcBits cli + 2 ^ ppcBits cli) :
    a.oeStart = a.oeDlmlock.cldStart := by
  rcases ha.startAligned with h | h
  · exact absurd h (Align.mod_ne_zero_of_lt h1 h2)
  · exact h

/-- Two extents a merge joins, `a` before `b` in one window and in adjacent
chunks, lie under one lock and meet without a gap. -/
theorem merge_meet (ha : ExtentShape cli a) (hb : ExtentShape cli b) (hab : a.oeEnd < b.oeStart)
    (hlock : LockCompat a.oeDlmlock b.oeDlmlock) (hmax : a.oeMaxEnd = b.oeMaxEnd)
    (hchunk : a.oeEnd / 2 ^ ppcBits cli + 1 = b.oeStart / 2 ^ ppcBits cli) :
    a.oeDlmlock = b.oeDlmlock ∧ a.oeEnd + 1 = b.oeStart := by
  have hp := ppc_pos cli
  -- the window end lies under both locks
  have hl : a.oeDlmlock = b.oeDlmlock := by
    have := ha.lockStart
    have := ha.startLe
    have := ha.endLe
    have := ha.maxEndLe
    have := hb.lockStart
    have := hb.startLe
    have := hb.endLe
    have := hb.maxEndLe
    exact hlock.eq_of_mem (x := a.oeMaxEnd) (by omega) (by omega) (by omega) (by omega)
  refine ⟨hl, ?_⟩
  -- `a` ends at a chunk edge: the window does not cut it, as `b` is in it
  have hend : a.oeEnd + 1 = a.oeEnd / 2 ^ ppcBits cli * 2 ^ ppcBits cli + 2 ^ ppcBits cli := by
    rcases ha.endAligned with h | h
    · exact Align.succ_eq_of_mod hp h
    · have := hb.startLe
      have := hb.endLe
      omega
  -- `b` starts at a chunk edge: the lock does not cut it, as `a` is under it
  have hstart : b.oeStart = b.oeStart / 2 ^ ppcBits cli * 2 ^ ppcBits cli := by
    rcases hb.startAligned with h | h
    · exact Align.eq_div_mul_of_mod h
    · have := ha.lockStart
      have := ha.startLe
      rw [← hl] at h
      omega
  rw [← hchunk, Nat.succ_mul] at hstart
  omega

/-- The extent a merge makes of `a` and `b`: from the start of `a` to the
end of `b`, in their window and under their lock. -/
theorem ExtentShape.join (ha : ExtentShape cli a) (hb : ExtentShape cli b) (hmeet : a.oeEnd + 1 = b.oeStart)
    (hmax : a.oeMaxEnd = b.oeMaxEnd)
    (hsize : a.oeEnd - a.oeStart + 1 + (b.oeEnd - b.oeStart + 1) ≤ cli.clMaxExtentPages) {m : OscExtent}
    (hs : m.oeStart = a.oeStart) (he : m.oeEnd = b.oeEnd) (hm : m.oeMaxEnd = a.oeMaxEnd)
    (hl : m.oeDlmlock = a.oeDlmlock) (hp : m.oeMppr = a.oeMppr) : ExtentShape cli m := by
  have := ha.startLe
  have := hb.startLe
  constructor
  · rw [hs, hl]
    exact ha.lockStart
  · rw [hs, he]
    omega
  · rw [he, hm, hmax]
    exact hb.endLe
  · rw [hm, hl]
    exact ha.maxEndLe
  · rw [hm, hs, hp]
    exact ha.window
  · rw [hs, hl]
    exact ha.startAligned
  · rw [he, hm, hmax]
    exact hb.endAligned
  · rw [hm, hl]
    exact ha.maxEndAligned
  · rw [hs, he]
    omega

/-- ... and the grant of the two, less one extent tax. -/
theorem Charged.join (ha : Charged cli a) (hb : Charged cli b) (hsa : a.oeStart ≤ a.oeEnd)
    (hsb : b.oeStart ≤ b.oeEnd) (hchunk : a.oeEnd / 2 ^ ppcBits cli + 1 = b.oeStart / 2 ^ ppcBits cli)
    {m : OscExtent} (hs : m.oeStart = a.oeStart) (he : m.oeEnd = b.oeEnd)
    (hg : m.oeGrants = a.oeGrants + b.oeGrants - cli.clGrantExtentTax) : Charged cli m := by
  unfold Charged chunkSpan at *
  have h1 : a.oeStart / 2 ^ ppcBits cli ≤ a.oeEnd / 2 ^ ppcBits cli := Align.div_le_div hsa
  have h2 : b.oeStart / 2 ^ ppcBits cli ≤ b.oeEnd / 2 ^ ppcBits cli := Align.div_le_div hsb
  -- the chunks of the merged extent are those of `a`, then those of `b`
  have hn : b.oeEnd / 2 ^ ppcBits cli - a.oeStart / 2 ^ ppcBits cli + 1 =
      (a.oeEnd / 2 ^ ppcBits cli - a.oeStart / 2 ^ ppcBits cli + 1) +
        (b.oeEnd / 2 ^ ppcBits cli - b.oeStart / 2 ^ ppcBits cli + 1) := by
    omega
  rw [hs, he, hg, ha, hb, hn, Nat.add_mul (a.oeEnd / 2 ^ ppcBits cli - a.oeStart / 2 ^ ppcBits cli + 1)]
  omega

/-- What `osc_extent_merge` can do with a cached extent and a victim beside
it under a compatible lock: refuse, or join the two. -/
theorem oscExtentMerge_cases {cur victim : OscExtent} (hc : cur.oeState = .cache) (hsc : ExtentShape cli cur)
    (hsv : ExtentShape cli victim) (hlock : LockCompat cur.oeDlmlock victim.oeDlmlock) :
    (∃ rc, rc ≠ 0 ∧ oscExtentMerge cli cur (some victim) = some (rc, cur)) ∨
    (oscExtentMerge cli cur (some victim) = some (0, { cur with
        oeStart := min cur.oeStart victim.oeStart
        oeEnd := max cur.oeEnd victim.oeEnd
        oeGrants := cur.oeGrants + victim.oeGrants - cli.clGrantExtentTax }) ∧
      (victim.oeState = .inv ∨ victim.oeState = .cache) ∧ cur.oeMaxEnd = victim.oeMaxEnd ∧
      cur.oeMppr = victim.oeMppr ∧
      (cur.oeStart / 2 ^ ppcBits cli = victim.oeEnd / 2 ^ ppcBits cli + 1 ∨
        cur.oeEnd / 2 ^ ppcBits cli + 1 = victim.oeStart / 2 ^ ppcBits cli) ∧
      cur.oeEnd - cur.oeStart + 1 + victim.oeEnd - victim.oeStart + 1 ≤ cli.clMaxExtentPages) := by
  have hebusy : (-ebusy : Int) ≠ 0 := by decide
  have herange : (-erange : Int) ≠ 0 := by decide
  unfold oscExtentMerge
  rw [if_neg (not_not.mpr hc)]
  by_cases h1 : victim.oeState ≠ .inv ∧ (victim.oeState ≠ .cache ∨ victim.oeFsyncWait = true)
  · exact .inl ⟨_, hebusy, by simp only [if_pos h1]⟩
  by_cases h2 : cur.oeMaxEnd ≠ victim.oeMaxEnd
  · exact .inl ⟨_, herange, by simp only [if_neg h1, if_pos h2]⟩
  by_cases h3 : cur.oeMppr ≠ victim.oeMppr
  · exact .inl ⟨_, herange, by simp only [if_neg h1, if_neg h2, if_pos h3]⟩
  -- one window end under both locks: one lock, so the assertion holds
  have h4 : ¬ cur.oeDlmlock ≠ victim.oeDlmlock := by
    have := hsc.startLe
    have := hsc.endLe
    have := hsv.startLe
    have := hsv.endLe
    have := hsv.maxEndLe
    have := hsv.lockStart
    refine not_not.mpr (hlock.eq_of_mem (x := cur.oeMaxEnd) (by have := hsc.lockStart; omega)
      hsc.maxEndLe (by omega) (by omega))
  by_cases h5 : cur.oeStart / 2 ^ ppcBits cli ≠ victim.oeEnd / 2 ^ ppcBits cli + 1 ∧
      cur.oeEnd / 2 ^ ppcBits cli + 1 ≠ victim.oeStart / 2 ^ ppcBits cli
  · exact .inl ⟨_, herange, by simp only [if_neg h1, if_neg h2, if_neg h3, if_neg h4, if_pos h5]⟩
  by_cases h6 : cur.oeEnd - cur.oeStart + 1 + victim.oeEnd - victim.oeStart + 1 > cli.clMaxExtentPages
  · exact .inl ⟨_, herange, by simp only [if_neg h1, if_neg h2, if_neg h3, if_neg h4, if_neg h5, if_pos h6]⟩
  refine .inr ⟨by simp only [if_neg h1, if_neg h2, if_neg h3, if_neg h4, if_neg h5, if_neg h6], ?_, not_not.mp h2, not_not.mp h3, ?_, by omega⟩
  · rcases not_and_or.mp h1 with h | h
    · exact .inl (not_not.mp h)
    · exact .inr (not_not.mp (not_or.mp h).1)
  · rcases not_and_or.mp h5 with h | h
    · exact .inl (not_not.mp h)
    · exact .inr (not_not.mp h)

end Merge

/-! ## The new extent of `osc_extent_find` -/

section NewExtent

variable {cli : ClientObd} {id index : Nat} {olck : OscLock}

@[simp] theorem findNewExtent_oeId : (findNewExtent cli id index olck).oeId = id := rfl
@[simp] theorem findNewExtent_oeUsers : (findNewExtent cli id index olck).oeUsers = 0 := rfl
@[simp] theorem findNewExtent_oeState : (findNewExtent cli id index olck).oeState = .inv := rfl
@[simp] theorem findNewExtent_oeDlmlock : (findNewExtent cli id index olck).oeDlmlock = olck := rfl
@[simp] theorem findNewExtent_oeMppr : (findNewExtent cli id index olck).oeMppr = cli.clMaxPagesPerRpc := rfl

theorem findNewExtent_oeMaxEnd :
    (findNewExtent cli id index olck).oeMaxEnd =
      min (index - index % cli.clMaxPagesPerRpc + cli.clMaxPagesPerRpc - 1) olck.cldEnd := rfl

theorem findNewExtent_oeStart :
    (findNewExtent cli id index olck).oeStart =
      if index / 2 ^ ppcBits cli * 2 ^ ppcBits cli < olck.cldStart then olck.cldStart
      else index / 2 ^ ppcBits cli * 2 ^ ppcBits cli := rfl

theorem findNewExtent_oeEnd :
    (findNewExtent cli id index olck).oeEnd =
      if (index + 2 ^ ppcBits cli) / 2 ^ ppcBits cli * 2 ^ ppcBits cli - 1 >
          (findNewExtent cli id index olck).oeMaxEnd then (findNewExtent cli id index olck).oeMaxEnd
      else (index + 2 ^ ppcBits cli) / 2 ^ ppcBits cli * 2 ^ ppcBits cli - 1 := by
  -- unfolded first: as a bare rfl the statement takes seconds to register
  simp only [findNewExtent]
  rfl

theorem findNewExtent_oeGrants :
    (findNewExtent cli id index olck).oeGrants = chunksize cli + cli.clGrantExtentTax := rfl

/-- What the loop of `osc_extent_find` knows of the new extent `cur` of the
chunk `c`. -/
structure NewExtent (cli : ClientObd) (cur : OscExtent) (c : Nat) : Prop where
  shape : ExtentShape cli cur
  charged : Charged cli cur
  chunkStart : c * 2 ^ ppcBits cli ≤ cur.oeStart
  chunkEnd : cur.oeEnd < c * 2 ^ ppcBits cli + 2 ^ ppcBits cli

/-- The new extent is the page's chunk, cut by the lock and by the end of
the RPC window. -/
theorem findNewExtent_spec (hcfg : ClientConfig cli) (hmod : cli.clMaxPagesPerRpc % 2 ^ ppcBits cli = 0)
    (hs : olck.cldStart ≤ index) (he : index ≤ olck.cldEnd) :
    NewExtent cli (findNewExtent cli id index olck) (index / 2 ^ ppcBits cli) ∧
      (findNewExtent cli id index olck).oeStart ≤ index ∧ index ≤ (findNewExtent cli id index olck).oeEnd := by
  have hp := ppc_pos cli
  have hm := hcfg.maxPages
  have hq := Align.div_mul_le_lt hp index
  -- the RPC window of the page starts and ends on chunk edges
  have hws : (index - index % cli.clMaxPagesPerRpc) % 2 ^ ppcBits cli = 0 := Align.window_start_mod hmod
  have hwe : (index - index % cli.clMaxPagesPerRpc + cli.clMaxPagesPerRpc) % 2 ^ ppcBits cli = 0 :=
    Align.window_end_mod hmod
  have hlt : index < index - index % cli.clMaxPagesPerRpc + cli.clMaxPagesPerRpc := Align.lt_window_end hm
  have hwsle : index - index % cli.clMaxPagesPerRpc ≤ index / 2 ^ ppcBits cli * 2 ^ ppcBits cli :=
    Align.le_div_mul_of_mod hws (Nat.sub_le _ _)
  have hend0 : (index + 2 ^ ppcBits cli) / 2 ^ ppcBits cli * 2 ^ ppcBits cli - 1 =
      index / 2 ^ ppcBits cli * 2 ^ ppcBits cli + 2 ^ ppcBits cli - 1 := by
    rw [Nat.add_div_right _ hp, Nat.succ_mul]
  -- the three ends, each cut by the lock or the window
  obtain ⟨hM1, hM2, hM3, hM4⟩ : index ≤ (findNewExtent cli id index olck).oeMaxEnd ∧
      (findNewExtent cli id index olck).oeMaxEnd ≤ olck.cldEnd ∧
      (findNewExtent cli id index olck).oeMaxEnd < index - index % cli.clMaxPagesPerRpc + cli.clMaxPagesPerRpc ∧
      (((findNewExtent cli id index olck).oeMaxEnd + 1) % 2 ^ ppcBits cli = 0 ∨
        (findNewExtent cli id index olck).oeMaxEnd = olck.cldEnd) := by
    rw [findNewExtent_oeMaxEnd]
    rcases Nat.le_total (index - index % cli.clMaxPagesPerRpc + cli.clMaxPagesPerRpc - 1) olck.cldEnd with h | h
    · rw [Nat.min_eq_left h, Nat.sub_add_cancel (by omega)]
      exact ⟨by omega, h, by omega, .inl hwe⟩
    · rw [Nat.min_eq_right h]
      exact ⟨he, le_refl _, by omega, .inr rfl⟩
  obtain ⟨hS1, hS2, hS3, hS4⟩ : olck.cldStart ≤ (findNewExtent cli id index olck).oeStart ∧
      index / 2 ^ ppcBits cli * 2 ^ ppcBits cli ≤ (findNewExtent cli id index olck).oeStart ∧
      (findNewExtent cli id index olck).oeStart ≤ index ∧
      ((findNewExtent cli id index olck).oeStart % 2 ^ ppcBits cli = 0 ∨
        (findNewExtent cli id index olck).oeStart = olck.cldStart) := by
    rw [findNewExtent_oeStart]
    split
    · exact ⟨le_refl _, by omega, hs, .inr rfl⟩
    · exact ⟨by omega, le_refl _, hq.1, .inl (Align.div_mul_mod index)⟩
  obtain ⟨hE1, hE2, hE3, hE4⟩ : index ≤ (findNewExtent cli id index olck).oeEnd ∧
      (findNewExtent cli id index olck).oeEnd ≤ (findNewExtent cli id index olck).oeMaxEnd ∧
      (findNewExtent cli id index olck).oeEnd < index / 2 ^ ppcBits cli * 2 ^ ppcBits cli + 2 ^ ppcBits cli ∧
      (((findNewExtent cli id index olck).oeEnd + 1) % 2 ^ ppcBits cli = 0 ∨
        (findNewExtent cli id index olck).oeEnd = (findNewExtent cli id index olck).oeMaxEnd) := by
    rw [findNewExtent_oeEnd, hend0]
    split
    · exact ⟨hM1, le_refl _, by omega, .inr rfl⟩
    · refine ⟨by omega, by omega, by omega, .inl ?_⟩
      rw [Nat.sub_add_cancel (by omega), ← Nat.succ_mul]
      exact Nat.mul_mod_left _ _
  have hsize : (findNewExtent cli id index olck).oeEnd - (findNewExtent cli id index olck).oeStart + 1 ≤
      cli.clMaxExtentPages := by
    have := hcfg.chunkFits
    omega
  -- both ends are in the page's chunk: one chunk of grant
  have hcs : (findNewExtent cli id index olck).oeStart / 2 ^ ppcBits cli = index / 2 ^ ppcBits cli :=
    Align.div_eq_of_mem hS2 (by omega)
  have hce : (findNewExtent cli id index olck).oeEnd / 2 ^ ppcBits cli = index / 2 ^ ppcBits cli :=
    Align.div_eq_of_mem (by omega) hE3
  refine ⟨⟨⟨hS1, by omega, hE2, hM2, ?_, hS4, hE4, hM4, hsize⟩, ?_, hS2, hE3⟩, hS3, hE1⟩
  · rw [findNewExtent_oeMppr]
    omega
  · unfold Charged chunkSpan
    rw [hcs, hce, findNewExtent_oeGrants, Nat.sub_self, Nat.zero_add, Nat.one_mul]

end NewExtent

/-! ## The loop of `osc_extent_find` -/

section Scan

variable {cli : ClientObd} {cur : OscExtent} {c : Nat}

theorem overlapped_eq_false {a b : OscExtent} : overlapped a b = false ↔ a.oeEnd < b.oeStart ∨ b.oeEnd < a.oeStart := by
  unfold overlapped
  rw [Bool.not_eq_false', Bool.or_eq_true, decide_eq_true_eq, decide_eq_true_eq]

/-- An extent that starts after the new extent's start starts after its end:
its start would be inside the chunk, hence its lock's first page, which
either is the new extent's lock's, before the new extent, or lies under a
lock disjoint from that one. -/
theorem NewExtent.start_gt_end (hcur : NewExtent cli cur c) {x : OscExtent} (hx : ExtentShape cli x)
    (hlock : LockCompat cur.oeDlmlock x.oeDlmlock) (hlt : cur.oeStart < x.oeStart) : cur.oeEnd < x.oeStart := by
  have hsc := hcur.shape
  by_contra hle
  have hx0 : x.oeStart = x.oeDlmlock.cldStart :=
    hx.start_eq_of_interior (c := c) (by have := hcur.chunkStart; omega) (by have := hcur.chunkEnd; omega)
  have := hsc.lockStart
  have := hsc.endLe
  have := hsc.maxEndLe
  have := hx.startLe
  have := hx.endLe
  have := hx.maxEndLe
  rcases hlock with h | h | h
  · have : cur.oeDlmlock.cldStart = x.oeDlmlock.cldStart := by rw [h]
    omega
  · omega
  · omega

/-- An extent of the new extent's lock that starts after it starts in a
later chunk. -/
theorem NewExtent.chunk_lt (hcur : NewExtent cli cur c) {x : OscExtent} (hx : ExtentShape cli x)
    (hlock : x.oeDlmlock = cur.oeDlmlock) (hlt : cur.oeStart < x.oeStart) : c < x.oeStart / 2 ^ ppcBits cli := by
  have hsc := hcur.shape
  by_contra hle
  have hx0 : x.oeStart = x.oeDlmlock.cldStart :=
    hx.start_eq_of_interior (c := c) (by have := hcur.chunkStart; omega)
      (Align.lt_of_div_le (ppc_pos cli) (Nat.le_of_not_lt hle))
  have := hsc.lockStart
  rw [hlock] at hx0
  omega

/-- The loop over extents that all start after the new extent's start runs
out or breaks off without a match. -/
theorem findScan_after (hcur : NewExtent cli cur c) :
    ∀ L : List OscExtent, (∀ x ∈ L, ExtentWF cli x ∧ LockCompat cur.oeDlmlock x.oeDlmlock ∧ cur.oeStart < x.oeStart) →
      findScan cli cur c L = .stop
  | [], _ => rfl
  | x :: rest, hL => by
    obtain ⟨hwf, hlock, hlt⟩ := hL x (by simp)
    have hrest := findScan_after hcur rest fun y hy => hL y (by simp [hy])
    have hafter := hcur.start_gt_end hwf.toExtentShape hlock hlt
    simp only [findScan, hwf.sanity, ne_eq, not_true_eq_false, if_false]
    by_cases hbreak : c > x.oeEnd / 2 ^ ppcBits cli + 1 ∨ c < x.oeStart / 2 ^ ppcBits cli
    · rw [if_pos hbreak]
    · rw [if_neg hbreak]
      by_cases hl : cur.oeDlmlock = x.oeDlmlock
      · -- of the new extent's lock, it would start in a later chunk
        exact absurd (hcur.chunk_lt hwf.toExtentShape hl.symm hlt) (fun h => hbreak (.inr h))
      · rw [if_pos hl, if_neg (by rw [Bool.not_eq_true, overlapped_eq_false]; omega)]
        exact hrest

/-- What the loop can end with, over the extents `L` from where the search
stopped: when it runs out the new extent overlaps none of them; an extent
found or merged onto is the first of them. -/
def ScanOk (cli : ClientObd) (cur : OscExtent) (L : List OscExtent) : FindScan → Prop
  | .stop => ∀ x ∈ L, x.oeEnd < cur.oeStart ∨ cur.oeEnd < x.oeStart
  | .found x => L.head? = some x ∧ (x.oeState = .active ∨ x.oeState = .cache)
  | .conflict _ => True
  | .merged x x' => L.head? = some x ∧ x.oeState = .cache ∧ x.oeEnd < cur.oeStart ∧
      oscExtentMerge cli x (some cur) = some (0, x')
  | .lbug => False

/-- An extent of the new extent's lock that overlaps it contains it. -/
theorem NewExtent.contains (hcur : NewExtent cli cur c) {x : OscExtent} (hx : ExtentShape cli x)
    (hlock : x.oeDlmlock = cur.oeDlmlock) (hov : overlapped x cur = true) :
    x.oeStart ≤ cur.oeStart ∧ x.oeEnd ≥ cur.oeEnd := by
  have hsc := hcur.shape
  have hp := ppc_pos cli
  have hov' : ¬ (x.oeEnd < cur.oeStart ∨ cur.oeEnd < x.oeStart) := by
    rw [← overlapped_eq_false, hov]
    simp
  constructor
  · by_contra h
    exact hov' (.inr (hcur.start_gt_end hx (.inl hlock.symm) (Nat.lt_of_not_le h)))
  · by_contra h
    -- `x` would end inside the chunk, where only its window or lock could cut it
    have h1 : c * 2 ^ ppcBits cli < x.oeEnd + 1 := by have := hcur.chunkStart; omega
    have h2 : x.oeEnd + 1 < c * 2 ^ ppcBits cli + 2 ^ ppcBits cli := by have := hcur.chunkEnd; omega
    have hend : x.oeEnd = x.oeMaxEnd := by
      rcases hx.endAligned with h' | h'
      · exact absurd h' (Align.mod_ne_zero_of_lt h1 h2)
      · exact h'
    have hmax : x.oeMaxEnd = x.oeDlmlock.cldEnd := by
      rcases hx.maxEndAligned with h' | h'
      · rw [← hend] at h'
        exact absurd h' (Align.mod_ne_zero_of_lt h1 h2)
      · exact h'
    have := hsc.endLe
    have := hsc.maxEndLe
    rw [hlock] at hmax
    omega

/-- The loop from the extent the search stopped at, when all the extents
after it start after the new extent's start. -/
theorem findScan_ok (hcur : NewExtent cli cur c) (L : List OscExtent)
    (hL : ∀ x ∈ L, ExtentWF cli x ∧ LockCompat cur.oeDlmlock x.oeDlmlock)
    (htail : ∀ x ∈ L.tail, cur.oeStart < x.oeStart) : ScanOk cli cur L (findScan cli cur c L) := by
  have hp := ppc_pos cli
  have hsc := hcur.shape
  cases L with
  | nil => exact fun _ h => (by cases h)
  | cons x rest =>
    obtain ⟨hwf, hlock⟩ := hL x (by simp)
    have hx := hwf.toExtentShape
    -- the rest of the loop finds nothing, and nothing there overlaps
    have hrest : findScan cli cur c rest = .stop :=
      findScan_after hcur rest fun y hy => ⟨(hL y (by simp [hy])).1, (hL y (by simp [hy])).2, htail y hy⟩
    have hrest' : ∀ y ∈ rest, cur.oeEnd < y.oeStart := fun y hy =>
      hcur.start_gt_end (hL y (by simp [hy])).1.toExtentShape (hL y (by simp [hy])).2 (htail y hy)
    have hstop : (x.oeEnd < cur.oeStart ∨ cur.oeEnd < x.oeStart) → ScanOk cli cur (x :: rest) .stop := by
      intro hx' y hy
      rcases List.mem_cons.mp hy with rfl | hy
      · exact hx'
      · exact .inr (hrest' y hy)
    simp only [findScan, hwf.sanity, ne_eq, not_true_eq_false, if_false]
    by_cases hbreak : c > x.oeEnd / 2 ^ ppcBits cli + 1 ∨ c < x.oeStart / 2 ^ ppcBits cli
    · -- the loop breaks off at an extent chunks away
      rw [if_pos hbreak]
      apply hstop
      rcases hbreak with h | h
      · have := Align.lt_mul_of_div_lt hp (show x.oeEnd / 2 ^ ppcBits cli < c by omega)
        have := hcur.chunkStart
        omega
      · have := Align.add_le_of_lt_div hp h
        have := hcur.chunkEnd
        omega
    rw [if_neg hbreak]
    by_cases hl : cur.oeDlmlock = x.oeDlmlock
    · rw [if_neg (not_not.mpr hl)]
      by_cases hdead : c + 1 < x.oeStart / 2 ^ ppcBits cli
      · exact absurd (show c < x.oeStart / 2 ^ ppcBits cli by omega) (fun h => hbreak (.inr h))
      rw [if_neg hdead]
      by_cases hov : overlapped x cur = true
      · -- `x` holds the page
        have hcont := hcur.contains hx hl.symm hov
        rw [if_pos hov, if_neg (not_not.mpr hcont)]
        by_cases hbusy : x.oeState.val > OscExtentState.cache.val ∨ x.oeFsyncWait = true
        · rw [if_pos hbusy]
          trivial
        · rw [if_neg hbusy]
          refine ⟨rfl, ?_⟩
          -- not past `OES_CACHE`, and never `OES_INV` in the tree
          have hle := (not_or.mp hbusy).1
          cases hs : x.oeState with
          | active => exact .inl rfl
          | cache => exact .inr rfl
          | inv => exact absurd hs hwf.notInv
          | _ => rw [hs] at hle; exact (hle (by decide)).elim
      have hap : x.oeEnd < cur.oeStart ∨ cur.oeEnd < x.oeStart :=
        overlapped_eq_false.mp (Bool.eq_false_iff.mpr hov)
      rw [if_neg hov]
      by_cases hnc : x.oeState ≠ .cache ∨ x.oeFsyncWait = true
      · rw [if_pos hnc, hrest]
        exact hstop hap
      rw [if_neg hnc]
      have hcache : x.oeState = .cache := not_not.mp (not_or.mp hnc).1
      rcases oscExtentMerge_cases hcache hx hcur.shape (.inl hl.symm) with ⟨rc, hrc, heq⟩ | ⟨heq, -, -, -, hchunk, -⟩
      · rw [heq]
        simp only [hrc, if_false, hrest]
        exact hstop hap
      · rw [heq]
        simp only [if_true]
        -- the new extent lies after `x`: it cannot lie before, a chunk on
        refine ⟨rfl, hcache, ?_, heq⟩
        rcases hap with h | h
        · exact h
        · exfalso
          have hce : cur.oeEnd / 2 ^ ppcBits cli = c :=
            Align.div_eq_of_mem (by have := hcur.chunkStart; have := hsc.startLe; omega) hcur.chunkEnd
          have hcs : cur.oeStart / 2 ^ ppcBits cli = c :=
            Align.div_eq_of_mem hcur.chunkStart (by have := hcur.chunkEnd; have := hsc.startLe; omega)
          have h1 : cur.oeEnd / 2 ^ ppcBits cli ≤ x.oeStart / 2 ^ ppcBits cli := Align.div_le_div (Nat.le_of_lt h)
          have h2 : x.oeStart / 2 ^ ppcBits cli ≤ x.oeEnd / 2 ^ ppcBits cli := Align.div_le_div hx.startLe
          omega
    · -- under another lock, `x` is apart from the new extent
      rw [if_pos hl]
      have hap : x.oeEnd < cur.oeStart ∨ cur.oeEnd < x.oeStart := by
        have := hsc.lockStart
        have := hsc.startLe
        have := hsc.endLe
        have := hsc.maxEndLe
        have := hx.lockStart
        have := hx.startLe
        have := hx.endLe
        have := hx.maxEndLe
        rcases hlock with h | h | h
        · exact absurd h hl
        · omega
        · omega
      rw [if_neg (by rw [Bool.not_eq_true, overlapped_eq_false]; exact hap), hrest]
      exact hstop hap

end Scan

/-! ## Merging in the tree -/

section Join

variable {cli : ClientObd} {obj : OscObject}

/-- A cached extent of the tree has no users. -/
theorem ExtentWF.users_eq_zero {e : OscExtent} (h : ExtentWF cli e) (hc : e.oeState = .cache) : e.oeUsers = 0 := by
  have := h.users
  rw [hc] at this
  exact Nat.eq_zero_of_not_pos fun hu => (by cases this.mpr hu)

/-- The extent a merge leaves of `a` and `b`, `a` first: cached, without
users, from the start of `a` to the end of `b`, with their grant less one
tax. -/
theorem ExtentWF.merged {a b : OscExtent} (ha : ExtentShape cli a) (hb : ExtentShape cli b) (hca : Charged cli a)
    (hcb : Charged cli b) (hab : a.oeEnd < b.oeStart) (hlock : LockCompat a.oeDlmlock b.oeDlmlock)
    (hmax : a.oeMaxEnd = b.oeMaxEnd) (hchunk : a.oeEnd / 2 ^ ppcBits cli + 1 = b.oeStart / 2 ^ ppcBits cli)
    (hsize : a.oeEnd - a.oeStart + 1 + (b.oeEnd - b.oeStart + 1) ≤ cli.clMaxExtentPages) {m : OscExtent}
    (hs : m.oeStart = a.oeStart) (he : m.oeEnd = b.oeEnd) (hm : m.oeMaxEnd = a.oeMaxEnd)
    (hl : m.oeDlmlock = a.oeDlmlock) (hp : m.oeMppr = a.oeMppr) (hst : m.oeState = .cache) (hu : m.oeUsers = 0)
    (hg : m.oeGrants = a.oeGrants + b.oeGrants - cli.clGrantExtentTax) : ExtentWF cli m := by
  obtain ⟨-, hmeet⟩ := merge_meet ha hb hab hlock hmax hchunk
  exact { ha.join hb hmeet hmax hsize hs he hm hl hp with
    notInv := by rw [hst]; decide
    users := by rw [hst, hu]; decide
    charged := fun _ => hca.join hcb ha.startLe hb.startLe hchunk hs he hg }

/-- Two neighbours `a`, `b` of the tree joined into `m`, written back at the
address of the one kept while the other leaves the tree: the tree keeps its
invariant, with `m` in their place. -/
theorem OscInv.join (h : OscInv cli obj) {pre post : List OscExtent} {a b m keep gone : OscExtent}
    (hsplit : obj.ooRoot = pre ++ a :: b :: post) (hwf : ExtentWF cli m) (hs : m.oeStart = a.oeStart)
    (he : m.oeEnd = b.oeEnd) (hla : m.oeDlmlock = a.oeDlmlock) (hlb : m.oeDlmlock = b.oeDlmlock)
    (hkg : (keep = a ∧ gone = b) ∨ (keep = b ∧ gone = a)) (hid : m.oeId = keep.oeId) :
    OscInv cli ((obj.eraseExtent gone.oeId).setExtent m) ∧
      ((obj.eraseExtent gone.oeId).setExtent m).ooRoot = pre ++ m :: post := by
  have hnd := h.idsNodup
  -- what is left once `gone` leaves: `keep` between the same neighbours
  have herase : (obj.eraseExtent gone.oeId).ooRoot = pre ++ keep :: post := by
    rcases hkg with ⟨rfl, rfl⟩ | ⟨rfl, rfl⟩
    · have hsplit' : obj.ooRoot = (pre ++ [keep]) ++ gone :: post := by
        rw [hsplit, List.append_assoc, List.singleton_append]
      rw [eraseExtent_split hnd hsplit', List.append_assoc, List.singleton_append]
    · exact eraseExtent_split hnd hsplit
  have h1 := h.eraseExtent gone.oeId
  have hso := h.sorted
  have hlo := h.locks
  rw [hsplit, List.pairwise_append, List.pairwise_cons, List.pairwise_cons] at hso hlo
  refine ⟨h1.setExtent herase hid hwf ?_ ?_ ?_, setExtent_split h1.idsNodup herase hid⟩
  · intro y hy
    rw [hs]
    exact hso.2.2 y hy a (by simp)
  · intro y hy
    rw [he]
    exact hso.2.1.2.1 y hy
  · intro y hy
    rcases List.mem_append.mp hy with hy | hy
    · rw [hla]
      exact (hlo.2.2 y hy a (by simp)).symm
    · rw [hlb]
      exact hlo.2.1.2.1 y hy

/-- Merging a cached extent of the tree with the one after it, as
`osc_extent_find` and `osc_extent_release` do: the tree keeps its invariant,
and the extent stays cached, in its place. -/
theorem OscInv.mergeNext (h : OscInv cli obj) {pre post : List OscExtent} {x : OscExtent}
    (hsplit : obj.ooRoot = pre ++ x :: post) (hx : x.oeState = .cache) :
    ∃ rc x' obj', oscExtentMergeIn cli obj x (nextExtent obj x) = some (rc, x', obj') ∧ OscInv cli obj' ∧
      x'.oeState = .cache ∧ ∃ post', obj'.ooRoot = pre ++ x' :: post' := by
  rw [nextExtent_split h.idsNodup hsplit]
  cases post with
  | nil =>
    refine ⟨-einval, x, obj, ?_, h, hx, [], hsplit⟩
    simp [oscExtentMergeIn, oscExtentMerge, hx]
  | cons n post =>
    have hwx := h.wf x (by rw [hsplit]; simp)
    have hwn := h.wf n (by rw [hsplit]; simp)
    have hso := h.sorted
    have hlo := h.locks
    rw [hsplit, List.pairwise_append, List.pairwise_cons] at hso hlo
    have hxn : x.oeEnd < n.oeStart := hso.2.1.1 n (by simp)
    have hlock : LockCompat x.oeDlmlock n.oeDlmlock := hlo.2.1.1 n (by simp)
    rcases oscExtentMerge_cases hx hwx.toExtentShape hwn.toExtentShape hlock with
      ⟨rc, hrc, heq⟩ | ⟨heq, hns, hmax, hmppr, hchunk, hsize⟩
    · -- refused: the tree is as it was
      refine ⟨rc, x, obj, ?_, h, hx, n :: post, hsplit⟩
      simp [oscExtentMergeIn, heq, hrc]
    · -- `n` is cached and in the next chunk: the two join
      have hsx := hwx.startLe
      have hsn := hwn.startLe
      have hchunk' : x.oeEnd / 2 ^ ppcBits cli + 1 = n.oeStart / 2 ^ ppcBits cli := by
        rcases hchunk with h1 | h1
        · have := Align.div_le_div (p := 2 ^ ppcBits cli) hsx
          have := Align.div_le_div (p := 2 ^ ppcBits cli) (Nat.le_of_lt hxn)
          have := Align.div_le_div (p := 2 ^ ppcBits cli) hsn
          omega
        · exact h1
      have hnc : n.oeState = .cache := hns.resolve_left hwn.notInv
      generalize hm : { x with
        oeStart := min x.oeStart n.oeStart
        oeEnd := max x.oeEnd n.oeEnd
        oeGrants := x.oeGrants + n.oeGrants - cli.clGrantExtentTax } = m at heq
      have hms : m.oeStart = x.oeStart := by rw [← hm]; exact Nat.min_eq_left (by omega)
      have hme : m.oeEnd = n.oeEnd := by rw [← hm]; exact Nat.max_eq_right (by omega)
      have hml : m.oeDlmlock = x.oeDlmlock := by rw [← hm]
      have hwf : ExtentWF cli m :=
        ExtentWF.merged hwx.toExtentShape hwn.toExtentShape (hwx.charged (.inr hx)) (hwn.charged (.inr hnc))
          hxn hlock hmax hchunk' (by omega) hms hme (by rw [← hm]) hml (by rw [← hm]) (by rw [← hm]; exact hx)
          (by rw [← hm]; exact hwx.users_eq_zero hx) (by rw [← hm])
      have hmeet := merge_meet hwx.toExtentShape hwn.toExtentShape hxn hlock hmax hchunk'
      obtain ⟨hinv, hroot⟩ := h.join hsplit hwf hms hme hml (hml.trans hmeet.1) (.inl ⟨rfl, rfl⟩)
        (by rw [← hm])
      refine ⟨0, m, _, ?_, hinv, by rw [← hm]; exact hx, post, hroot⟩
      simp [oscExtentMergeIn, heq]

/-- ... and with the one before it. -/
theorem OscInv.mergePrev (h : OscInv cli obj) {pre post : List OscExtent} {x : OscExtent}
    (hsplit : obj.ooRoot = pre ++ x :: post) (hx : x.oeState = .cache) :
    ∃ rc x' obj', oscExtentMergeIn cli obj x (prevExtent obj x) = some (rc, x', obj') ∧ OscInv cli obj' ∧
      x'.oeState = .cache ∧ ∃ pre', obj'.ooRoot = pre' ++ x' :: post := by
  rw [prevExtent_split h.idsNodup hsplit]
  rcases List.eq_nil_or_concat pre with rfl | ⟨pre, v, rfl⟩
  · refine ⟨-einval, x, obj, ?_, h, hx, [], hsplit⟩
    simp [oscExtentMergeIn, oscExtentMerge, hx]
  · rw [List.concat_eq_append] at hsplit ⊢
    rw [List.getLast?_concat]
    have hsplit' : obj.ooRoot = pre ++ v :: x :: post := by rw [hsplit, List.append_assoc, List.singleton_append]
    have hwx := h.wf x (by rw [hsplit]; simp)
    have hwv := h.wf v (by rw [hsplit']; simp)
    have hso := h.sorted
    have hlo := h.locks
    rw [hsplit', List.pairwise_append, List.pairwise_cons] at hso hlo
    have hvx : v.oeEnd < x.oeStart := hso.2.1.1 x (by simp)
    have hlock : LockCompat v.oeDlmlock x.oeDlmlock := hlo.2.1.1 x (by simp)
    rcases oscExtentMerge_cases hx hwx.toExtentShape hwv.toExtentShape hlock.symm with
      ⟨rc, hrc, heq⟩ | ⟨heq, hvs, hmax, hmppr, hchunk, hsize⟩
    · refine ⟨rc, x, obj, ?_, h, hx, pre ++ [v], hsplit⟩
      simp [oscExtentMergeIn, heq, hrc]
    · -- `v` is cached and in the chunk before: the two join
      have hsx := hwx.startLe
      have hsv := hwv.startLe
      have hchunk' : v.oeEnd / 2 ^ ppcBits cli + 1 = x.oeStart / 2 ^ ppcBits cli := by
        rcases hchunk with h1 | h1
        · exact h1.symm
        · have := Align.div_le_div (p := 2 ^ ppcBits cli) hsx
          have := Align.div_le_div (p := 2 ^ ppcBits cli) (Nat.le_of_lt hvx)
          have := Align.div_le_div (p := 2 ^ ppcBits cli) hsv
          omega
      have hvc : v.oeState = .cache := hvs.resolve_left hwv.notInv
      have hmeet := merge_meet hwv.toExtentShape hwx.toExtentShape hvx hlock hmax.symm hchunk'
      generalize hm : { x with
        oeStart := min x.oeStart v.oeStart
        oeEnd := max x.oeEnd v.oeEnd
        oeGrants := x.oeGrants + v.oeGrants - cli.clGrantExtentTax } = m at heq
      have hms : m.oeStart = v.oeStart := by rw [← hm]; exact Nat.min_eq_right (by omega)
      have hme : m.oeEnd = x.oeEnd := by rw [← hm]; exact Nat.max_eq_left (by omega)
      have hml : m.oeDlmlock = x.oeDlmlock := by rw [← hm]
      have hwf : ExtentWF cli m :=
        ExtentWF.merged hwv.toExtentShape hwx.toExtentShape (hwv.charged (.inr hvc)) (hwx.charged (.inr hx))
          hvx hlock hmax.symm hchunk' (by omega) hms hme (by rw [← hm]; exact hmax) (hml.trans hmeet.1.symm)
          (by rw [← hm]; exact hmppr) (by rw [← hm]; exact hx) (by rw [← hm]; exact hwx.users_eq_zero hx)
          (by rw [← hm]; exact Nat.add_comm _ _ ▸ rfl)
      obtain ⟨hinv, hroot⟩ := h.join hsplit' hwf hms hme (hml.trans hmeet.1.symm) hml (.inr ⟨rfl, rfl⟩)
        (by rw [← hm])
      refine ⟨0, m, _, ?_, hinv, by rw [← hm]; exact hx, pre, hroot⟩
      simp [oscExtentMergeIn, heq]

end Join

/-! ## `osc_extent_find` -/

section Find

variable {cli : ClientObd} {obj : OscObject}

/-- Where the loop of `osc_extent_find` starts: past extents that all end
before `x`, at an extent after which all start after `x`. -/
theorem findScanFrom_spec (h : OscInv cli obj) (x : Nat) :
    ∃ pre, obj.ooRoot = pre ++ findScanFrom obj x ∧ (∀ e ∈ pre, e.oeEnd < x) ∧
      ∀ e ∈ (findScanFrom obj x).tail, x < e.oeStart := by
  unfold findScanFrom oscExtentSearch
  rcases @extentSearchWalk_spec x obj.ooRoot none h.sorted h.startLe with
    ⟨heq, hall⟩ | ⟨pre, e, post, hsplit, heq, hpre, hpost⟩
  · rw [heq]
    exact ⟨[], rfl, fun _ h => (by cases h), fun e he => hall e (List.mem_of_mem_tail he)⟩
  · rw [heq]
    dsimp only
    rw [extentsFrom_split h.idsNodup hsplit]
    exact ⟨pre, hsplit, hpre, hpost⟩

/-- `osc_extent_hold` of an active or cached extent of the tree. -/
theorem OscInv.hold (h : OscInv cli obj) {pre post : List OscExtent} {x : OscExtent}
    (hsplit : obj.ooRoot = pre ++ x :: post) (hx : x.oeState = .active ∨ x.oeState = .cache) :
    ∃ x', oscExtentHold x = some x' ∧ OscInv cli (obj.setExtent x') := by
  have hwf := h.wf x (by rw [hsplit]; simp)
  refine ⟨{ x with oeState := .active, oeUsers := x.oeUsers + 1 }, by unfold oscExtentHold; rw [if_pos hx], ?_⟩
  have hwf' : ExtentWF cli { x with oeState := .active, oeUsers := x.oeUsers + 1 } :=
    { hwf.toExtentShape with
      notInv := by simp
      users := by simp
      charged := fun _ => hwf.charged hx }
  exact h.setExtent_same hsplit rfl hwf' rfl rfl rfl

/-- What `osc_extent_find` does after its loop, from the extent the search
stopped at: whatever the loop ends with, it returns, and the tree keeps its
invariant. -/
theorem findFinish_spec (h : OscInv cli obj) {cur : OscExtent} {c grants : Nat} (hcur : NewExtent cli cur c)
    (hid : cur.oeId = obj.ooNextId) (hlock : ∀ e ∈ obj.ooRoot, LockCompat cur.oeDlmlock e.oeDlmlock)
    (hg : chunksize cli ≤ grants) :
    ∃ r g obj', findFinish cli obj grants cur (findScan cli cur c (findScanFrom obj cur.oeStart)) =
      some (r, g, obj') ∧ OscInv cli obj' := by
  obtain ⟨pre, hroot, hpre, htail⟩ := findScanFrom_spec h cur.oeStart
  have hL : ∀ x ∈ findScanFrom obj cur.oeStart, ExtentWF cli x ∧ LockCompat cur.oeDlmlock x.oeDlmlock :=
    fun x hx => ⟨h.wf x (by rw [hroot]; exact List.mem_append_right _ hx), hlock x (by rw [hroot]; exact List.mem_append_right _ hx)⟩
  have hok := findScan_ok hcur _ hL htail
  generalize findScan cli cur c (findScanFrom obj cur.oeStart) = sc at hok
  cases sc with
  | lbug => exact hok.elim
  | conflict x => exact ⟨_, _, obj, rfl, h⟩
  | found x =>
    -- the extent the search stopped at holds the page
    obtain ⟨hhead, hx⟩ := hok
    obtain ⟨post, hpost⟩ := List.head?_eq_some_iff.mp hhead
    obtain ⟨x', hhold, hinv⟩ := h.hold (by rw [hroot, hpost]) hx
    exact ⟨.found x'.oeId, grants, obj.setExtent x', by simp [findFinish, hhold], hinv⟩
  | merged x x' =>
    -- the new extent went onto the end of the extent the search stopped at
    obtain ⟨hhead, hxc, hxcur, hmerge⟩ := hok
    obtain ⟨post, hpost⟩ := List.head?_eq_some_iff.mp hhead
    have hsplit : obj.ooRoot = pre ++ x :: post := by rw [hroot, hpost]
    obtain ⟨hwx, hlx⟩ := hL x (by rw [hpost]; simp)
    have hsx := hwx.startLe
    have hsc := hcur.shape.startLe
    rcases oscExtentMerge_cases hxc hwx.toExtentShape hcur.shape hlx.symm with
      ⟨rc, hrc, heq⟩ | ⟨heq, -, hmax, -, hchunk, hsize⟩
    · rw [heq] at hmerge
      exact absurd (Prod.mk.inj (Option.some.inj hmerge)).1 hrc
    have hchunk' : x.oeEnd / 2 ^ ppcBits cli + 1 = cur.oeStart / 2 ^ ppcBits cli := by
      rcases hchunk with h1 | h1
      · have := Align.div_le_div (p := 2 ^ ppcBits cli) hsx
        have := Align.div_le_div (p := 2 ^ ppcBits cli) (Nat.le_of_lt hxcur)
        have := Align.div_le_div (p := 2 ^ ppcBits cli) hsc
        omega
      · exact h1
    rw [heq] at hmerge
    have hx' := (Prod.mk.inj (Option.some.inj hmerge)).2
    have hms : x'.oeStart = x.oeStart := by rw [← hx']; exact Nat.min_eq_left (by omega)
    have hme : x'.oeEnd = cur.oeEnd := by rw [← hx']; exact Nat.max_eq_right (by omega)
    have hml : x'.oeDlmlock = x.oeDlmlock := by rw [← hx']
    have hxc' : x'.oeState = .cache := by rw [← hx']; exact hxc
    have hwf : ExtentWF cli x' :=
      ExtentWF.merged hwx.toExtentShape hcur.shape (hwx.charged (.inr hxc)) hcur.charged hxcur hlx.symm hmax
        hchunk' (by omega) hms hme (by rw [← hx']) hml (by rw [← hx']) hxc'
        (by rw [← hx']; exact hwx.users_eq_zero hxc) (by rw [← hx'])
    -- written back in place of `x`, it still ends before the extents after it
    have hinv1 : OscInv cli (obj.setExtent x') := by
      refine h.setExtent_end hsplit (by rw [← hx']) hwf hms ?_ hml
      intro b hb
      rw [hme]
      have hb' : b ∈ (findScanFrom obj cur.oeStart).tail := by rw [hpost]; exact hb
      exact hcur.start_gt_end (hL b (by rw [hpost]; simp [hb])).1.toExtentShape
        (hL b (by rw [hpost]; simp [hb])).2 (htail b hb')
    have hsplit1 := setExtent_split h.idsNodup hsplit (show x'.oeId = x.oeId by rw [← hx'])
    -- then onto the extent after it, and held
    obtain ⟨rc2, x'', obj2, hm2, hinv2, hc2, post', hsplit2⟩ := hinv1.mergeNext hsplit1 hxc'
    obtain ⟨x3, hhold, hinv3⟩ := hinv2.hold hsplit2 (.inr hc2)
    exact ⟨_, _, _, by
      simp only [findFinish, if_neg (Nat.not_lt.mpr hg), hm2, hhold, Option.map_some]
      rfl, hinv3⟩
  | stop =>
    -- nothing holds the page: the new extent goes in, held
    have hap : ∀ y ∈ obj.ooRoot, y.oeEnd < cur.oeStart ∨ cur.oeEnd < y.oeStart := by
      intro y hy
      rw [hroot] at hy
      rcases List.mem_append.mp hy with hy | hy
      · exact .inl (hpre y hy)
      · exact hok y hy
    have hwf : ExtentWF cli { { cur with oeState := .cache } with oeState := .active, oeUsers := cur.oeUsers + 1 } :=
      { hcur.shape with
        notInv := by simp
        users := by simp
        charged := fun _ => hcur.charged }
    obtain ⟨obj', hins, hinv⟩ := h.insert hwf hid hap hlock
    exact ⟨_, _, _, by
      simp only [findFinish, oscExtentHold, or_true, if_true, hins, Option.map_some]
      rfl, hinv⟩

/-- The new extent lies inside its RPC window, as `osc_extent_find` asserts. -/
theorem findNewExtent_window {id index c : Nat} {olck : OscLock} (hcur : NewExtent cli (findNewExtent cli id index olck) c) :
    (findNewExtent cli id index olck).oeStart ≤ (findNewExtent cli id index olck).oeMaxEnd ∧
      (findNewExtent cli id index olck).oeMaxEnd - (findNewExtent cli id index olck).oeStart < cli.clMaxPagesPerRpc := by
  have := hcur.shape.startLe
  have := hcur.shape.endLe
  have := hcur.shape.window
  rw [findNewExtent_oeMppr] at this
  omega

/-- `osc_extent_find` for a page its lock covers, with the grant a new
extent takes, under a lock that is one with or disjoint from those of the
tree: it returns, and the tree keeps its invariant. -/
theorem oscExtentFind_spec (hcfg : ClientConfig cli) (h : OscInv cli obj) {index grants : Nat} {olck : OscLock}
    (allocOk : Bool) (hs : olck.cldStart ≤ index) (he : index ≤ olck.cldEnd)
    (hg : chunksize cli + cli.clGrantExtentTax ≤ grants) (hlock : ∀ e ∈ obj.ooRoot, LockCompat olck e.oeDlmlock) :
    ∃ r g obj', oscExtentFind cli obj index grants olck allocOk = some (r, g, obj') ∧ OscInv cli obj' := by
  cases allocOk with
  | false => exact ⟨_, _, obj, rfl, h⟩
  | true =>
    unfold oscExtentFind
    dsimp only
    rw [if_neg (show ¬ ¬ true = true from not_not.mpr rfl), if_neg (Nat.not_lt.mpr hcfg.chunkbits)]
    by_cases hmod : cli.clMaxPagesPerRpc % 2 ^ ppcBits cli ≠ 0
    · exact ⟨_, _, obj, by rw [if_pos hmod], h⟩
    rw [if_neg hmod, if_neg (Nat.pos_iff_ne_zero.mp hcfg.maxPages), if_neg (Nat.not_lt.mpr hg)]
    obtain ⟨hcur, -, -⟩ := @findNewExtent_spec cli obj.ooNextId index olck hcfg (not_not.mp hmod) hs he
    rw [if_neg (not_not.mpr (findNewExtent_window hcur))]
    exact findFinish_spec h hcur rfl hlock (by omega)

end Find

/-! ## Growing, releasing and removing an extent -/

section Update

variable {cli : ClientObd} {obj : OscObject}

/-- `osc_extent_expand` of an extent of the tree for a page of its window,
with a chunk of grant: it returns, and the tree keeps its invariant. -/
theorem oscExtentExpand_spec (h : OscInv cli obj) {x : OscExtent} {index grants : Nat} (hx : x ∈ obj.ooRoot)
    (hs : x.oeStart ≤ index) (he : index ≤ x.oeMaxEnd) (hg : chunksize cli ≤ grants) :
    ∃ rc g obj', oscExtentExpand cli obj x.oeId index grants = some (rc, g, obj') ∧ OscInv cli obj' := by
  have hp := ppc_pos cli
  obtain ⟨pre, post, hsplit⟩ := List.append_of_mem hx
  have hwf := h.wf x hx
  unfold oscExtentExpand
  rw [lookupExtent_split h.idsNodup hsplit]
  dsimp only
  rw [if_neg (not_not.mpr ⟨he, hs⟩), if_neg (not_not.mpr hwf.sanity)]
  by_cases h1 : index / 2 ^ ppcBits cli > x.oeEnd / 2 ^ ppcBits cli + 1
  · exact ⟨_, _, obj, by rw [if_pos h1], h⟩
  rw [if_neg h1]
  by_cases h2 : x.oeEnd / 2 ^ ppcBits cli ≥ index / 2 ^ ppcBits cli
  · exact ⟨_, _, obj, by rw [if_pos h2], h⟩
  rw [if_neg h2, Nat.succ_mul]
  -- the page is in the chunk after the extent's last: the extent grows to
  -- the end of that chunk, or of its window
  have hq := Align.div_mul_le_lt hp index
  obtain ⟨hE1, hE2, hE3, hE4⟩ : index ≤ min x.oeMaxEnd (index / 2 ^ ppcBits cli * 2 ^ ppcBits cli + 2 ^ ppcBits cli - 1) ∧
      min x.oeMaxEnd (index / 2 ^ ppcBits cli * 2 ^ ppcBits cli + 2 ^ ppcBits cli - 1) ≤ x.oeMaxEnd ∧
      min x.oeMaxEnd (index / 2 ^ ppcBits cli * 2 ^ ppcBits cli + 2 ^ ppcBits cli - 1) / 2 ^ ppcBits cli =
        index / 2 ^ ppcBits cli ∧
      ((min x.oeMaxEnd (index / 2 ^ ppcBits cli * 2 ^ ppcBits cli + 2 ^ ppcBits cli - 1) + 1) % 2 ^ ppcBits cli = 0 ∨
        min x.oeMaxEnd (index / 2 ^ ppcBits cli * 2 ^ ppcBits cli + 2 ^ ppcBits cli - 1) = x.oeMaxEnd) := by
    rcases Nat.le_total x.oeMaxEnd (index / 2 ^ ppcBits cli * 2 ^ ppcBits cli + 2 ^ ppcBits cli - 1) with hm | hm
    · rw [Nat.min_eq_left hm]
      exact ⟨he, le_refl _, Align.div_eq_of_mem (by omega) (by omega), .inr rfl⟩
    · rw [Nat.min_eq_right hm]
      refine ⟨by omega, hm, Align.div_eq_of_mem (by omega) (by omega), .inl ?_⟩
      rw [Nat.sub_add_cancel (by omega), ← Nat.succ_mul]
      exact Nat.mul_mod_left _ _
  generalize min x.oeMaxEnd (index / 2 ^ ppcBits cli * 2 ^ ppcBits cli + 2 ^ ppcBits cli - 1) = E at hE1 hE2 hE3 hE4 ⊢
  by_cases h3 : E - x.oeStart + 1 > cli.clMaxExtentPages
  · exact ⟨_, _, obj, by rw [if_pos h3], h⟩
  rw [if_neg h3, nextExtent_split h.idsNodup hsplit]
  by_cases h4 : post.head?.any (·.oeStart ≤ E) = true
  · exact ⟨_, _, obj, by rw [if_pos h4], h⟩
  rw [if_neg h4, if_neg (Nat.not_lt.mpr hg)]
  refine ⟨_, _, _, rfl, ?_⟩
  -- one more chunk, and one more chunk of grant
  have hwf' : ExtentWF cli { x with oeEnd := E, oeGrants := x.oeGrants + chunksize cli } :=
    { lockStart := hwf.lockStart
      startLe := by dsimp only; omega
      endLe := hE2
      maxEndLe := hwf.maxEndLe
      window := hwf.window
      startAligned := hwf.startAligned
      endAligned := hE4
      maxEndAligned := hwf.maxEndAligned
      size := by dsimp only; omega
      notInv := hwf.notInv
      users := hwf.users
      charged := fun hc => by
        have hcx := hwf.charged hc
        have := Align.div_le_div (p := 2 ^ ppcBits cli) hwf.startLe
        unfold Charged chunkSpan at hcx ⊢
        dsimp only
        rw [hcx, hE3, show index / 2 ^ ppcBits cli - x.oeStart / 2 ^ ppcBits cli + 1 =
          (x.oeEnd / 2 ^ ppcBits cli - x.oeStart / 2 ^ ppcBits cli + 1) + 1 by omega,
          Nat.add_one_mul (x.oeEnd / 2 ^ ppcBits cli - x.oeStart / 2 ^ ppcBits cli + 1)]
        omega }
  refine h.setExtent_end hsplit rfl hwf' rfl ?_ rfl
  -- the extent after it starts past the new end
  cases post with
  | nil => exact fun _ hb => (by cases hb)
  | cons n post =>
    have hso := h.sorted
    rw [hsplit, List.pairwise_append, List.pairwise_cons, List.pairwise_cons] at hso
    have hn : E < n.oeStart := by
      simp only [List.head?_cons, Option.any_some, decide_eq_true_eq] at h4
      omega
    have hsn := (h.wf n (by rw [hsplit]; simp)).startLe
    intro b hb
    rcases List.mem_cons.mp hb with rfl | hb
    · exact hn
    · have := hso.2.1.2.1 b hb
      show E < b.oeStart
      omega

/-- `osc_extent_release` of an extent of the tree that has users: it
returns, and the tree keeps its invariant. -/
theorem oscExtentRelease_spec (h : OscInv cli obj) {x : OscExtent} (hx : x ∈ obj.ooRoot) (hu : 0 < x.oeUsers) :
    ∃ g obj', oscExtentRelease cli obj x.oeId = some (g, obj') ∧ OscInv cli obj' := by
  obtain ⟨pre, post, hsplit⟩ := List.append_of_mem hx
  have hwf := h.wf x hx
  have hact : x.oeState = .active := hwf.users.mpr hu
  -- an active extent holds its grant
  have hgr : x.oeGrants ≠ 0 := by
    have hc := hwf.charged (.inl hact)
    unfold Charged chunkSpan at hc
    have := chunksize_pos cli
    have : 0 < (x.oeEnd / 2 ^ ppcBits cli - x.oeStart / 2 ^ ppcBits cli + 1) * chunksize cli :=
      Nat.mul_pos (Nat.succ_pos _) this
    omega
  unfold oscExtentRelease
  rw [lookupExtent_split h.idsNodup hsplit]
  dsimp only
  rw [if_neg (Nat.pos_iff_ne_zero.mp hu), if_neg (not_not.mpr hwf.sanity), if_neg hgr]
  by_cases h1 : x.oeUsers - 1 ≠ 0
  · -- still in use: it stays active
    rw [if_pos h1]
    refine ⟨_, _, rfl, h.setExtent_same hsplit rfl ?_ rfl rfl rfl⟩
    exact { hwf.toExtentShape with
      notInv := hwf.notInv
      users := by simp only [hact, true_iff]; omega
      charged := fun _ => hwf.charged (.inl hact) }
  rw [if_neg h1, if_neg (not_not.mpr hact)]
  by_cases ht : x.oeTruncPending = true
  · -- handed to the truncate that waits for it
    rw [if_pos ht]
    refine ⟨_, _, rfl, h.setExtent_same hsplit rfl ?_ rfl rfl rfl⟩
    exact { hwf.toExtentShape with
      notInv := by simp
      users := by simp only [reduceCtorEq, false_iff]; omega
      charged := fun hc => by simp at hc }
  rw [if_neg ht]
  -- the last user left: cached, then merged with both neighbours
  generalize hxc : ({ x with oeUsers := x.oeUsers - 1, oeState := .cache } : OscExtent) = xc
  have hwc : ExtentWF cli xc := by
    rw [← hxc]
    exact { hwf.toExtentShape with
      notInv := by simp
      users := by simp only [reduceCtorEq, false_iff]; omega
      charged := fun _ => hwf.charged (.inl hact) }
  have hid : xc.oeId = x.oeId := by rw [← hxc]
  have hinv1 := h.setExtent_same hsplit hid hwc (by rw [← hxc]) (by rw [← hxc]) (by rw [← hxc])
  obtain ⟨rc1, x1, obj1, hm1, hinv2, hc1, pre', hsplit2⟩ :=
    hinv1.mergePrev (setExtent_split h.idsNodup hsplit hid) (by rw [← hxc])
  obtain ⟨rc2, x2, obj2, hm2, hinv3, -, -⟩ := hinv2.mergeNext hsplit2 hc1
  exact ⟨_, _, by simp only [hm1, hm2]; rfl, hinv3⟩

/-- `__osc_extent_remove` of an extent of the tree. -/
theorem oscExtentRemove_spec (h : OscInv cli obj) {x : OscExtent} (hx : x ∈ obj.ooRoot) :
    ∃ obj', oscExtentRemove obj x.oeId = some obj' ∧ OscInv cli obj' := by
  obtain ⟨pre, post, hsplit⟩ := List.append_of_mem hx
  refine ⟨_, ?_, h.eraseExtent x.oeId⟩
  rw [oscExtentRemove, lookupExtent_split h.idsNodup hsplit]
  rfl

end Update

/-! ## Runs -/

section Runs

variable {cli : ClientObd}

/-- The calls a caller makes: a find for a page its write lock covers, with
the grant a new extent takes, under a lock that is one with or disjoint from
those of the tree; an expand of an extent of the tree for a page of its
window, with a chunk of grant; a release of an extent that has users; a
removal of an extent of the tree. -/
def OscAllowed (cli : ClientObd) (obj : OscObject) : OscOp → Prop
  | .find index grants olck _ => olck.cldStart ≤ index ∧ index ≤ olck.cldEnd ∧
      chunksize cli + cli.clGrantExtentTax ≤ grants ∧ ∀ e ∈ obj.ooRoot, LockCompat olck e.oeDlmlock
  | .expand extId index grants =>
      ∃ x ∈ obj.ooRoot, x.oeId = extId ∧ x.oeStart ≤ index ∧ index ≤ x.oeMaxEnd ∧ chunksize cli ≤ grants
  | .release extId => ∃ x ∈ obj.ooRoot, x.oeId = extId ∧ 0 < x.oeUsers
  | .remove extId => ∃ x ∈ obj.ooRoot, x.oeId = extId

instance (cli : ClientObd) (obj : OscObject) (op : OscOp) : Decidable (OscAllowed cli obj op) := by
  cases op <;> unfold OscAllowed <;> infer_instance

/-- Each call the caller may make returns, and keeps the tree. -/
theorem oscStep_spec (hcfg : ClientConfig cli) {obj : OscObject} (h : OscInv cli obj) {op : OscOp}
    (hop : OscAllowed cli obj op) : ∃ r obj', oscStep cli obj op = some (r, obj') ∧ OscInv cli obj' := by
  cases op with
  | find index grants olck allocOk =>
    obtain ⟨hs, he, hg, hlock⟩ := hop
    obtain ⟨r, g, obj', heq, hinv⟩ := oscExtentFind_spec hcfg h allocOk hs he hg hlock
    exact ⟨.find r g, obj', by simp [oscStep, heq], hinv⟩
  | expand extId index grants =>
    obtain ⟨x, hx, rfl, hs, he, hg⟩ := hop
    obtain ⟨rc, g, obj', heq, hinv⟩ := oscExtentExpand_spec h hx hs he hg
    exact ⟨.expand rc g, obj', by simp [oscStep, heq], hinv⟩
  | release extId =>
    obtain ⟨x, hx, rfl, hu⟩ := hop
    obtain ⟨g, obj', heq, hinv⟩ := oscExtentRelease_spec h hx hu
    exact ⟨.release g, obj', by simp [oscStep, heq], hinv⟩
  | remove extId =>
    obtain ⟨x, hx, rfl⟩ := hop
    obtain ⟨obj', heq, hinv⟩ := oscExtentRemove_spec h hx
    exact ⟨.remove, obj', by simp [oscStep, heq], hinv⟩

/-- Every run of calls the caller may make, from a tree in shape, returns;
after it the extents are sorted and apart, each inside its window, within
the server's extent size, and holding one chunk of grant per chunk plus the
tax while it is active or cached. -/
theorem osc_extent_run_invariants (hcfg : ClientConfig cli) {obj : OscObject} (h : OscInv cli obj)
    {ops : List OscOp} (hrun : StepRun.AllowedRun (oscStep cli) (OscAllowed cli) obj ops) :
    ∃ rs obj', StepRun.run (oscStep cli) obj ops = some (rs, obj') ∧ OscInv cli obj' ∧
      obj'.ooRoot.Pairwise (fun a b => a.oeEnd < b.oeStart) ∧
      ∀ e ∈ obj'.ooRoot, e.oeStart ≤ e.oeEnd ∧ e.oeEnd ≤ e.oeMaxEnd ∧ e.oeMaxEnd - e.oeStart < e.oeMppr ∧
        e.oeEnd - e.oeStart + 1 ≤ cli.clMaxExtentPages ∧
        (e.oeState = .active ∨ e.oeState = .cache →
          e.oeGrants = (e.oeEnd / 2 ^ ppcBits cli - e.oeStart / 2 ^ ppcBits cli + 1) * chunksize cli +
            cli.clGrantExtentTax) := by
  have hstep : ∀ s op r s', OscAllowed cli s op → OscInv cli s → oscStep cli s op = some (r, s') → OscInv cli s' := by
    intro s op r s' hop hs heq
    obtain ⟨r', s'', heq', hinv⟩ := oscStep_spec hcfg hs hop
    rw [heq] at heq'
    cases heq'
    exact hinv
  cases hr : StepRun.run (oscStep cli) obj ops with
  | none =>
    -- a run that fails has a step that fails, which no allowed step does
    obtain ⟨s, op, -, hs, hop, hnone⟩ := StepRun.run_eq_none (oscStep cli) (OscAllowed cli) (OscInv cli) hstep ops obj hrun h hr
    obtain ⟨r, s', heq, -⟩ := oscStep_spec hcfg hs hop
    rw [hnone] at heq
    cases heq
  | some res =>
    obtain ⟨rs, obj'⟩ := res
    have hinv := StepRun.run_inv (oscStep cli) (OscAllowed cli) (OscInv cli) hstep ops obj rs obj' hrun h hr
    refine ⟨rs, obj', rfl, hinv, hinv.sorted, fun e he => ?_⟩
    have hwf := hinv.wf e he
    have := hwf.startLe
    have := hwf.endLe
    have := hwf.window
    exact ⟨hwf.startLe, hwf.endLe, by omega, hwf.size, hwf.charged⟩

theorem osc_extent_run_find_release :
    ClientConfig ⟨13, 0, 16, 4⟩ ∧
      ∃ rs obj', StepRun.run (oscStep ⟨13, 0, 16, 4⟩) ⟨[], 0⟩ [.find 0 8192 ⟨1, 0, 1000⟩ true, .release 0] =
        some (rs, obj') ∧ OscInv ⟨13, 0, 16, 4⟩ obj' := by
  have hcfg : ClientConfig ⟨13, 0, 16, 4⟩ := ⟨by decide, by decide, by decide⟩
  -- the find makes extent 0 of pages 0 and 1, with one user to release
  have hrun : StepRun.AllowedRun (oscStep ⟨13, 0, 16, 4⟩) (OscAllowed ⟨13, 0, 16, 4⟩) ⟨[], 0⟩
      [.find 0 8192 ⟨1, 0, 1000⟩ true, .release 0] := by
    refine ⟨by decide, fun r s hs => ⟨?_, fun _ _ _ => trivial⟩⟩
    have hfind : oscStep ⟨13, 0, 16, 4⟩ ⟨[], 0⟩ (.find 0 8192 ⟨1, 0, 1000⟩ true) =
        some (.find (.found 0) 0, ⟨[⟨0, 1, .active, false, false, 8192, 0, 1, 3, ⟨1, 0, 1000⟩, 4⟩], 1⟩) := by
      decide
    rw [hfind] at hs
    cases hs
    decide
  obtain ⟨rs, obj', hr, hinv, -⟩ := osc_extent_run_invariants hcfg (OscInv.empty _ 0) hrun
  exact ⟨hcfg, rs, obj', hr, hinv⟩

/-- With chunks larger than the server's extent limit, the first extent
`osc_extent_find` makes is already too large: a chunk of two pages, where
`cl_max_extent_pages` is one. -/
theorem osc_extent_find_exceeds_max_extent_pages :
    pageShift ≤ 13 ∧ 0 < 4 ∧ OscAllowed ⟨13, 0, 1, 4⟩ ⟨[], 0⟩ (.find 0 8192 ⟨1, 0, 1000⟩ true) ∧
      ∃ r obj', oscStep ⟨13, 0, 1, 4⟩ ⟨[], 0⟩ (.find 0 8192 ⟨1, 0, 1000⟩ true) = some (r, obj') ∧
        ∃ e ∈ obj'.ooRoot, (⟨13, 0, 1, 4⟩ : ClientObd).clMaxExtentPages < e.oeEnd - e.oeStart + 1 :=
  ⟨by decide, by decide, by decide, .find (.found 0) 0,
    ⟨[⟨0, 1, .active, false, false, 8192, 0, 1, 3, ⟨1, 0, 1000⟩, 4⟩], 1⟩, by decide,
    ⟨0, 1, .active, false, false, 8192, 0, 1, 3, ⟨1, 0, 1000⟩, 4⟩, List.mem_singleton_self _, by decide⟩

end Runs

end Lustre.Osc
