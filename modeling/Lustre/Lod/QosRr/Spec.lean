import Mathlib
import Lustre.Lod.QosRr
import Lustre.Lib.Keyed

/-! # Every target of the pool gets a slot of its own

The array `lod_qos_calc_rr` fills is described by the targets it holds,
`filled`: its slots that are not `LOV_QOS_EMPTY`. Placing a target in an
empty slot adds it to them (`filled_set_perm`); as long as fewer targets
than slots are held, an empty slot is left and the probe from any slot
stops at one (`probeEmpty_spec`).

The loop for one server places the server's targets of the pool, in pool
order, as long as the server counts at least that many targets
(`placeSvrTgts_spec`): the `j`-th starts its probe at
`j * n / lsq_tgt_count`, a slot of the array. Over a list of servers that
holds each server once and the server of every target of the pool, the
targets placed server by server are the pool in another order
(`Keyed.perm_flatMap_filter`), so the array ends up holding the pool: every
slot is used, once (`lod_qos_calc_rr_places_every_target`).
-/

namespace Lustre.Lod

/-- The targets an array holds: its slots that are not empty. -/
def filled (arr : List Nat) : List Nat := arr.filter (· != lovQosEmpty)

@[simp] theorem filled_replicate (n : Nat) : filled (List.replicate n lovQosEmpty) = [] := by
  simp [filled]

/-- A target placed in an empty slot joins the targets held. -/
theorem filled_set_perm {arr : List Nat} {i : Nat} (hi : i < arr.length) (hempty : arr[i] = lovQosEmpty) {t : Nat}
    (ht : t ≠ lovQosEmpty) : (filled (arr.set i t)).Perm (filled arr ++ [t]) := by
  have hsplit : arr = arr.take i ++ lovQosEmpty :: arr.drop (i + 1) := by
    rw [← hempty, ← List.drop_eq_getElem_cons hi, List.take_append_drop]
  have hset : arr.set i t = arr.take i ++ t :: arr.drop (i + 1) := by
    rw [List.set_eq_take_append_cons_drop, if_pos hi]
  rw [hset]
  conv => rhs; rw [hsplit]
  simp only [filled, List.filter_append, List.filter_cons, bne_self_eq_false, bne_iff_ne, ne_eq, ht,
    not_false_eq_true, if_true, Bool.false_eq_true, if_false]
  exact List.perm_middle.trans (List.perm_append_singleton t _).symm

theorem exists_empty_of_filled_lt {arr : List Nat} (h : (filled arr).length < arr.length) :
    ∃ a ∈ arr, (a == lovQosEmpty) = true := by
  by_contra hnone
  simp only [not_exists, not_and, Bool.not_eq_true] at hnone
  have hall : filled arr = arr := List.filter_eq_self.mpr fun a ha => by simpa using hnone a ha
  rw [hall] at h
  exact Nat.lt_irrefl _ h

/-- From a slot of an array with fewer targets than slots, the probe stops
at an empty slot. -/
theorem probeEmpty_spec {arr : List Nat} {next : Nat} (hnext : next < arr.length)
    (hroom : (filled arr).length < arr.length) :
    ∃ slot, probeEmpty arr next = some slot ∧ ∃ h : slot < arr.length, arr[slot] = lovQosEmpty := by
  have hsome := LinearProbe.scan_isSome hnext (Nat.le_refl _) (exists_empty_of_filled_lt hroom)
  obtain ⟨slot, hslot⟩ := Option.isSome_iff_exists.mp hsome
  obtain ⟨hlt, hfree⟩ := LinearProbe.scan_spec hslot
  exact ⟨slot, hslot, hlt, by simpa using hfree⟩

/-- The `j`-th target of a server that counts more than `j` targets starts
its probe inside the array. -/
theorem spacing_lt {j n count : Nat} (hj : j < count) (hn : 0 < n) : j * n % 2 ^ 32 / count < n := by
  rw [Nat.div_lt_iff_lt_mul (by omega)]
  calc j * n % 2 ^ 32 ≤ j * n := Nat.mod_le _ _
    _ < n * count := by rw [Nat.mul_comm n count]; exact Nat.mul_lt_mul_of_pos_right hj hn

/-- A target of the table is never taken for an empty slot. -/
theorem LuTgtDescs.ne_empty {σ : Type} (ltd : LuTgtDescs σ) {t : Nat} (ht : ltd.ltdTgtBitmap t = true) :
    t ≠ lovQosEmpty := by
  have := ltd.bitmap_le t ht
  unfold tgtTableSize at this
  unfold lovQosEmpty
  omega

section Place

variable {σ : Type} [DecidableEq σ] (ltd : LuTgtDescs σ)

/-- The targets of a pool on server `svr`, in pool order. -/
def onSvr (svr : σ) (pool : List Nat) : List Nat := pool.filter fun t => ltd.ltqSvr t = svr

/-- The loop for one server places its targets of the rest of the pool,
when the server counts them and the array has room for them. -/
theorem placeSvrTgts_spec (svr : σ) (n : Nat) :
    ∀ (rest : List Nat) (j : Nat) (arr : List Nat) (placed : Nat), arr.length = n →
      (filled arr).length = placed → (∀ t ∈ rest, ltd.ltdTgtBitmap t = true) →
      j + (onSvr ltd svr rest).length ≤ ltd.lsqTgtCount svr → placed + (onSvr ltd svr rest).length ≤ n →
      ∃ arr', placeSvrTgts ltd svr n rest j arr placed = some (arr', placed + (onSvr ltd svr rest).length) ∧
        arr'.length = n ∧ (filled arr').Perm (filled arr ++ onSvr ltd svr rest)
  | [], _, arr, _, hlen, _, _, _, _ => ⟨arr, rfl, hlen, by simp [onSvr]⟩
  | t :: rest, j, arr, placed, hlen, hfilled, hbit, hcount, hroom => by
    have hbit' : ∀ t ∈ rest, ltd.ltdTgtBitmap t = true := fun t' h => hbit t' (List.mem_cons_of_mem t h)
    have ht : ltd.ltdTgtBitmap t = true := hbit t List.mem_cons_self
    unfold placeSvrTgts
    rw [if_neg (by simp [ht])]
    by_cases hs : ltd.ltqSvr t = svr
    · -- a target of this server: probe from its spaced slot
      have hon : onSvr ltd svr (t :: rest) = t :: onSvr ltd svr rest := by simp [onSvr, hs]
      rw [hon, List.length_cons] at hcount hroom
      rw [if_neg (not_not.mpr hs), if_neg (by omega)]
      have hnext : j * n % 2 ^ 32 / ltd.lsqTgtCount svr < arr.length :=
        hlen ▸ spacing_lt (by omega) (by omega)
      obtain ⟨slot, hslot, hlt, hempty⟩ := probeEmpty_spec hnext (by omega)
      have hperm := filled_set_perm hlt hempty (ltd.ne_empty ht)
      obtain ⟨arr', hrun, hlen', hperm'⟩ :=
        placeSvrTgts_spec svr n rest (j + 1) (arr.set slot t) (placed + 1) (by simp [hlen])
          (by rw [hperm.length_eq]; simp [hfilled]) hbit' (by omega) (by omega)
      refine ⟨arr', ?_, hlen', ?_⟩
      · rw [hslot, hon, List.length_cons]
        dsimp only
        rw [hrun]
        congr 2
        omega
      · rw [hon]
        exact hperm'.trans ((hperm.append_right _).trans (by simp))
    · -- a target of another server is skipped
      have hon : onSvr ltd svr (t :: rest) = onSvr ltd svr rest := by simp [onSvr, hs]
      rw [if_pos hs, hon]
      rw [hon] at hcount hroom
      exact placeSvrTgts_spec svr n rest j arr placed hlen hfilled hbit' hcount hroom

/-- The loop over a list of servers places each server's targets of the
pool, server after server. -/
theorem placeSvrs_spec (pool : List Nat) (n : Nat) (hbit : ∀ t ∈ pool, ltd.ltdTgtBitmap t = true) :
    ∀ (svrs : List σ) (arr : List Nat) (placed : Nat), arr.length = n → (filled arr).length = placed →
      (∀ s ∈ svrs, (onSvr ltd s pool).length ≤ ltd.lsqTgtCount s) →
      placed + (svrs.flatMap fun s => onSvr ltd s pool).length ≤ n →
      ∃ arr', placeSvrs ltd pool n svrs arr placed =
          some (arr', placed + (svrs.flatMap fun s => onSvr ltd s pool).length) ∧
        arr'.length = n ∧ (filled arr').Perm (filled arr ++ svrs.flatMap fun s => onSvr ltd s pool)
  | [], arr, _, hlen, _, _, _ => ⟨arr, rfl, hlen, by simp⟩
  | s :: rest, arr, placed, hlen, hfilled, hcount, hroom => by
    simp only [List.flatMap_cons, List.length_append] at hroom ⊢
    obtain ⟨arr₁, hrun₁, hlen₁, hperm₁⟩ :=
      placeSvrTgts_spec ltd s n pool 0 arr placed hlen hfilled hbit (by simpa using hcount s List.mem_cons_self)
        (by omega)
    obtain ⟨arr₂, hrun₂, hlen₂, hperm₂⟩ :=
      placeSvrs_spec pool n hbit rest arr₁ (placed + (onSvr ltd s pool).length) hlen₁
        (by rw [hperm₁.length_eq]; simp [hfilled]) (fun s' h => hcount s' (List.mem_cons_of_mem s h)) (by omega)
    refine ⟨arr₂, ?_, hlen₂, ?_⟩
    · unfold placeSvrs
      rw [hrun₁]
      simp only [hrun₂, Nat.add_assoc]
    · exact hperm₂.trans ((hperm₁.append_right _).trans (by simp))

end Place

/-- With a dirty list, a pool of targets of the table, each on a server of
`lq_svr_list` that counts at least its targets in the pool,
`lod_qos_calc_rr` returns 0 and leaves the list clean, holding the pool's
targets in another order and no empty slot. -/
theorem lod_qos_calc_rr_places_every_target {σ : Type} [DecidableEq σ] (ltd : LuTgtDescs σ) (srcPool : List Nat)
    (lqr : LuQosRr) (hdirty : lqr.lqrDirty = true) (hn : 0 < srcPool.length)
    (hbit : ∀ t ∈ srcPool, ltd.ltdTgtBitmap t = true) (hsvr : ∀ t ∈ srcPool, ltd.ltqSvr t ∈ ltd.lqSvrList)
    (hcount : ∀ s ∈ ltd.lqSvrList, (srcPool.filter fun t => ltd.ltqSvr t = s).length ≤ ltd.lsqTgtCount s) :
    ∃ arr, lodQosCalcRr ltd srcPool lqr = some (0, ⟨arr, false⟩) ∧ arr.Perm srcPool ∧ lovQosEmpty ∉ arr := by
  -- server by server, the targets placed are the pool
  have hpool : (ltd.lqSvrList.flatMap fun s => onSvr ltd s srcPool).Perm srcPool :=
    Keyed.perm_flatMap_filter ltd.ltqSvr ltd.svr_nodup hsvr
  obtain ⟨arr, hrun, hlen, hperm⟩ :=
    placeSvrs_spec ltd srcPool srcPool.length hbit ltd.lqSvrList (List.replicate srcPool.length lovQosEmpty) 0
      (by simp) (by simp) hcount
      (by rw [hpool.length_eq]; omega)
  rw [filled_replicate, List.nil_append] at hperm
  have hall := hperm.trans hpool
  -- as many targets as slots: no slot is empty
  have hfull : filled arr = arr := List.filter_eq_self.mpr fun a ha => by
    have hlen' : (filled arr).length = arr.length := by rw [hall.length_eq, hlen]
    exact List.length_filter_eq_length_iff.mp hlen' a ha
  rw [hfull] at hall
  refine ⟨arr, ?_, hall, fun hmem => ltd.ne_empty (hbit _ (hall.subset hmem)) rfl⟩
  unfold lodQosCalcRr
  rw [if_neg (by simp [hdirty]), if_neg (by omega), hrun, hpool.length_eq]
  simp

/-- Two servers of two targets each, the targets 0 to 3 on the server of
their parity. -/
def twoServers : LuTgtDescs Nat :=
  ⟨fun t => decide (t < 4), fun t => t % 2, fun _ => 2, [0, 1], by decide,
    fun t h => by simp only [decide_eq_true_eq] at h; unfold tgtTableSize; omega⟩

theorem lod_qos_calc_rr_two_servers :
    (⟨[], true⟩ : LuQosRr).lqrDirty = true ∧ 0 < [0, 1, 2, 3].length ∧
      (∀ t ∈ [0, 1, 2, 3], twoServers.ltdTgtBitmap t = true) ∧
      (∀ t ∈ [0, 1, 2, 3], twoServers.ltqSvr t ∈ twoServers.lqSvrList) ∧
      (∀ s ∈ twoServers.lqSvrList,
        ([0, 1, 2, 3].filter fun t => twoServers.ltqSvr t = s).length ≤ twoServers.lsqTgtCount s) ∧
      ∃ arr, lodQosCalcRr twoServers [0, 1, 2, 3] ⟨[], true⟩ = some (0, ⟨arr, false⟩) ∧ arr.Perm [0, 1, 2, 3] ∧
        lovQosEmpty ∉ arr :=
  ⟨rfl, by decide, by decide, by decide, by decide,
    lod_qos_calc_rr_places_every_target twoServers [0, 1, 2, 3] ⟨[], true⟩ rfl (by decide) (by decide) (by decide)
      (by decide)⟩

end Lustre.Lod
