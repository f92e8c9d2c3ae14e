import Mathlib
import Lustre.Fld.Fixup

/-! # What `fld_cache_insert_nolock` does

In a cache of MDT ranges kept tidy (`Tidy`: sorted, disjoint, merged, with
node numbers below `fciNextId`), one insertion of a non-empty MDT range either
trips the `LASSERT` of case 3 of `fld_cache_overlap_handle`, exactly when the
entry the walk stops at has another index, starts before the new range and
ends where it ends, or leaves the cache tidy and answering every lookup as
the new range put in front of the shrunk list would (`coverOf`).

The walk of `fld_cache_insert_nolock` is described once by
`fldCacheInsertPos_spec`; each case of `fld_cache_overlap_handle` has its
own lemma, stated over `OverlapAt`, which carries what the walk has found.
-/

namespace Lustre.Fld

/-! ## Lists -/

theorem modify_append_cons (f : FldCacheEntry → FldCacheEntry) (a b : List FldCacheEntry) (e : FldCacheEntry) :
    (a ++ e :: b).modify a.length f = a ++ f e :: b := by
  induction a with
  | nil => simp
  | cons x a ih => simp [ih]

/-- `list_add` after the last entry of `a`, or at the head for an empty `a`. -/
theorem insertAfter_append {a b : List FldCacheEntry} {pos : Option Nat} (x : FldCacheEntry)
    (hpos : pos = if a.length = 0 then none else some (a.length - 1)) : insertAfter (a ++ b) pos x = a ++ x :: b := by
  cases a with
  | nil =>
    subst hpos
    rfl
  | cons y a =>
    simp only [List.length_cons, Nat.add_one_ne_zero, if_false, Nat.add_sub_cancel] at hpos
    subst hpos
    rw [insertAfter, List.take_left' (by simp), List.drop_left' (by simp)]

theorem setRange_entries (cache : FldCache) (i : Nat) (range : LuSeqRange) :
    (cache.setRange i range).fciEntries = cache.fciEntries.modify i fun e => { e with fceRange := range } := rfl

@[simp] theorem setRange_fciNextId (cache : FldCache) (i : Nat) (range : LuSeqRange) :
    (cache.setRange i range).fciNextId = cache.fciNextId := rfl

/-! ## What a list answers -/

theorem coverOf_eq_none_of_le {a : List FldCacheEntry} {seq : UInt64} (h : ∀ x ∈ a, x.hi ≤ seq.toNat) :
    coverOf a seq = none := by
  induction a with
  | nil => rfl
  | cons x a ih =>
    have hx : rangeCover x.fceRange seq = none := by
      have hnot : ¬ luSeqRangeWithin x.fceRange seq = true := by
        rw [within_iff_lo_hi]
        have := h x (by simp)
        omega
      simp [rangeCover, hnot]
    rw [coverOf_cons, hx, ih (fun y hy => h y (by simp [hy])), Option.none_or]

/-- Putting `m` in place of `n` between entries `a` that end before `fNew`
starts answers as `fNew` in front, if `m` answers as `fNew` in front of
`n`. -/
theorem coverOf_insert_mid {a m n b : List FldCacheEntry} {fNew : FldCacheEntry} (ha : ∀ x ∈ a, x.hi ≤ fNew.lo)
    (hm : ∀ seq, coverOf m seq = coverOf (fNew :: n) seq) (seq : UInt64) :
    coverOf (a ++ m ++ b) seq = coverOf (fNew :: (a ++ n ++ b)) seq := by
  have hmb : coverOf (m ++ b) seq = (rangeCover fNew.fceRange seq).or (coverOf (n ++ b) seq) := by
    rw [coverOf_append, hm, coverOf_cons, coverOf_append, Option.or_assoc]
  rw [List.append_assoc, List.append_assoc, coverOf_cons, coverOf_append a (m ++ b), coverOf_append a (n ++ b), hmb]
  by_cases hw : luSeqRangeWithin fNew.fceRange seq = true
  · -- inside the new range the entries before it answer nothing
    have hnone : coverOf a seq = none := coverOf_eq_none_of_le fun x hx => by
      have := ha x hx
      have := (within_iff_lo_hi fNew seq).mp hw
      omega
    rw [hnone, Option.none_or]
    simp [rangeCover, hw]
  · have hnone : rangeCover fNew.fceRange seq = none := by simp [rangeCover, hw]
    rw [hnone, Option.none_or, Option.none_or]

/-- Two ranges that share no sequence answer in either order. -/
theorem rangeCover_or_comm (c n : LuSeqRange)
    (hdisj : ∀ seq, ¬ (luSeqRangeWithin c seq = true ∧ luSeqRangeWithin n seq = true)) (seq : UInt64) :
    (rangeCover c seq).or (rangeCover n seq) = (rangeCover n seq).or (rangeCover c seq) := by
  unfold rangeCover
  by_cases hc : luSeqRangeWithin c seq = true
  · have hn : ¬ luSeqRangeWithin n seq = true := fun hn => hdisj seq ⟨hc, hn⟩
    simp [hc, hn]
  · by_cases hn : luSeqRangeWithin n seq = true <;> simp [hc, hn]

/-! ## The walk of `fld_cache_insert_nolock` -/

/-- Where the walk stops in a list of the new range's kind: before the first
entry that starts after the new range ends, with the entries passed ending
before it starts, or at the first entry it overlaps. -/
theorem fldCacheInsertPos_spec (r : LuSeqRange) (i : Nat) (prev : Option Nat) (l : List FldCacheEntry)
    (hfl : AllFlags r.lsrFlags l) :
    (∃ a b, l = a ++ b ∧ (∀ x ∈ a, x.hi ≤ r.lsrStart.toNat) ∧ (∀ x ∈ b.head?, r.lsrEnd.toNat < x.lo) ∧
      fldCacheInsertPos r i prev l = .addAfter (if a.length = 0 then prev else some (i + a.length - 1))) ∨
    (∃ a e b, l = a ++ e :: b ∧ (∀ x ∈ a, x.hi ≤ r.lsrStart.toNat) ∧ r.lsrStart.toNat < e.hi ∧
      e.lo ≤ r.lsrEnd.toNat ∧ fldCacheInsertPos r i prev l = .overlap (i + a.length) e.fceRange) := by
  induction l generalizing i prev with
  | nil => exact .inl ⟨[], [], rfl, by simp, by simp, rfl⟩
  | cons e rest ih =>
    have hfe : e.fceRange.lsrFlags = r.lsrFlags := hfl e (by simp)
    have hrest : AllFlags r.lsrFlags rest := fun x hx => hfl x (List.mem_cons_of_mem e hx)
    simp only [fldCacheInsertPos]
    by_cases h1 : r.lsrEnd < e.fceRange.lsrStart ∨ (r.lsrEnd = e.fceRange.lsrStart ∧ r.lsrFlags ≠ e.fceRange.lsrFlags)
    · -- the new range goes before `e`
      rw [if_pos h1]
      have hlt : r.lsrEnd.toNat < e.lo := by
        rcases h1 with h1 | ⟨-, h1⟩
        · exact UInt64.lt_iff_toNat_lt.mp h1
        · exact absurd hfe.symm h1
      exact .inl ⟨[], e :: rest, rfl, by simp, by simpa using hlt, by simp⟩
    rw [if_neg h1]
    have hle : e.lo ≤ r.lsrEnd.toNat := by
      have : ¬ r.lsrEnd < e.fceRange.lsrStart := fun h => h1 (.inl h)
      exact UInt64.le_iff_toNat_le.mp (UInt64.not_lt.mp this)
    by_cases h2 : r.lsrStart < e.fceRange.lsrEnd ∧ r.lsrFlags = e.fceRange.lsrFlags
    · -- `e` is the first entry the new range overlaps
      rw [if_pos h2]
      exact .inr ⟨[], e, rest, rfl, by simp, UInt64.lt_iff_toNat_lt.mp h2.1, hle, by simp⟩
    -- `e` ends before the new range starts: the walk goes on
    rw [if_neg h2]
    have hskip : e.hi ≤ r.lsrStart.toNat := by
      have : ¬ r.lsrStart < e.fceRange.lsrEnd := fun h => h2 ⟨h, hfe.symm⟩
      exact UInt64.le_iff_toNat_le.mp (UInt64.not_lt.mp this)
    have hpass : ∀ (a : List FldCacheEntry), (∀ x ∈ a, x.hi ≤ r.lsrStart.toNat) →
        ∀ x ∈ e :: a, x.hi ≤ r.lsrStart.toNat := by
      intro a ha x hx
      rcases List.mem_cons.mp hx with rfl | hx
      · exact hskip
      · exact ha x hx
    rcases ih (i + 1) (some i) hrest with ⟨a, b, heq, ha, hb, hpos⟩ | ⟨a, e', b, heq, ha, hov1, hov2, hpos⟩
    · refine .inl ⟨e :: a, b, by rw [heq]; rfl, hpass a ha, hb, ?_⟩
      rw [hpos]
      cases a with
      | nil => simp
      | cons y a =>
        simp only [List.length_cons]
        rw [if_neg (Nat.add_one_ne_zero _), if_neg (Nat.add_one_ne_zero _)]
        congr 2
        omega
    · refine .inr ⟨e :: a, e', b, by rw [heq]; rfl, hpass a ha, hov1, hov2, ?_⟩
      rw [hpos]
      simp only [List.length_cons]
      congr 1
      omega

/-! ## What each case hands to `fld_fix_new_list` -/

/-- What the walk has found: `e` is the first entry of a tidy list of kind
`F` that `fNew` overlaps, and the entries `a` before it end before `fNew`
starts. -/
structure OverlapAt (F : UInt32) (fNew : FldCacheEntry) (a : List FldCacheEntry) (e : FldCacheEntry)
    (b : List FldCacheEntry) : Prop where
  tidy : Tidy (a ++ e :: b)
  flags : AllFlags F (a ++ e :: b)
  newFlags : fNew.fceRange.lsrFlags = F
  newNonempty : fNew.lo < fNew.hi
  before : ∀ x ∈ a, x.hi ≤ fNew.lo
  startsBefore : fNew.lo < e.hi
  endsAfter : e.lo ≤ fNew.hi

/-- A list that an insertion of `fNew` into `l` hands to `fld_fix_new_list`:
of the shape the walk repairs, of kind `F`, drawn from `fNew` and `l`, and
answering as `fNew` in front of `l`. -/
structure FixInput (F : UInt32) (l : List FldCacheEntry) (fNew : FldCacheEntry) (l' : List FldCacheEntry) : Prop where
  shape : FixShape l'
  flags : AllFlags F l'
  drawn : Drawn (fNew :: l) l'
  cover : ∀ seq, coverOf l' seq = coverOf (fNew :: l) seq

/-- What an insertion of `fNew` into `l` should leave: a tidy list of kind
`F` that answers as `fNew` in front of `l`. -/
structure Inserted (F : UInt32) (l : List FldCacheEntry) (fNew : FldCacheEntry) (l' : List FldCacheEntry) : Prop where
  tidy : Tidy l'
  flags : AllFlags F l'
  cover : ∀ seq, coverOf l' seq = coverOf (fNew :: l) seq

namespace OverlapAt

variable {F : UInt32} {fNew e : FldCacheEntry} {a b : List FldCacheEntry}

theorem a_pairwise (h : OverlapAt F fNew a e b) : a.Pairwise Apart := (List.pairwise_append.mp h.tidy.1).1

theorem eb_pairwise (h : OverlapAt F fNew a e b) : (e :: b).Pairwise Apart := (List.pairwise_append.mp h.tidy.1).2.1

theorem a_apart (h : OverlapAt F fNew a e b) : ∀ x ∈ a, Apart x e :=
  fun x hx => (List.pairwise_append.mp h.tidy.1).2.2 x hx e (by simp)

theorem b_apart (h : OverlapAt F fNew a e b) : ∀ x ∈ b, Apart e x :=
  fun _ hx => List.rel_of_pairwise_cons h.eb_pairwise hx

theorem a_nonempty (h : OverlapAt F fNew a e b) : AllNonempty a := (AllNonempty.append.mp h.tidy.2).1

theorem b_nonempty (h : OverlapAt F fNew a e b) : AllNonempty b :=
  fun x hx => (AllNonempty.append.mp h.tidy.2).2 x (List.mem_cons_of_mem e hx)

theorem e_nonempty (h : OverlapAt F fNew a e b) : e.lo < e.hi := (AllNonempty.append.mp h.tidy.2).2 e (by simp)

theorem e_flags (h : OverlapAt F fNew a e b) : e.fceRange.lsrFlags = F := h.flags e (by simp)

/-- The entries before `e` end before `e` and `fNew` both start. -/
theorem a_hi_le (h : OverlapAt F fNew a e b) : ∀ x ∈ a, x.hi ≤ e.lo ∧ x.hi ≤ fNew.lo :=
  fun x hx => ⟨(h.a_apart x hx).before, h.before x hx⟩

theorem b_lo_ge (h : OverlapAt F fNew a e b) : ∀ x ∈ b, e.hi ≤ x.lo := fun x hx => (h.b_apart x hx).before

/-- Putting `m` in place of `e`, with the entries of `m` of kind `F`,
non-empty, and drawn from `fNew` and `e`. -/
theorem mid_flags (h : OverlapAt F fNew a e b) {m : List FldCacheEntry} (hm : AllFlags F m) :
    AllFlags F (a ++ m ++ b) := by
  intro x hx
  simp only [List.mem_append] at hx
  rcases hx with (hx | hx) | hx
  · exact h.flags x (by simp [hx])
  · exact hm x hx
  · exact h.flags x (by simp [hx])

theorem mid_nonempty (h : OverlapAt F fNew a e b) {m : List FldCacheEntry} (hm : AllNonempty m) :
    AllNonempty (a ++ m ++ b) :=
  AllNonempty.append.mpr ⟨AllNonempty.append.mpr ⟨h.a_nonempty, hm⟩, h.b_nonempty⟩

theorem mid_drawn {m : List FldCacheEntry} (hm : Drawn [fNew, e] m) : Drawn (fNew :: (a ++ e :: b)) (a ++ m ++ b) := by
  intro x hx
  simp only [List.mem_append] at hx
  rcases hx with (hx | hx) | hx
  · exact Drawn.refl _ x (by simp [hx])
  · obtain ⟨⟨y, hy, hid⟩, ⟨z, hz, hfl⟩⟩ := hm x hx
    have hsub : ∀ w ∈ [fNew, e], w ∈ fNew :: (a ++ e :: b) := by simp
    exact ⟨⟨y, hsub y hy, hid⟩, ⟨z, hsub z hz, hfl⟩⟩
  · exact Drawn.refl _ x (by simp [hx])

theorem mid_cover (h : OverlapAt F fNew a e b) {m : List FldCacheEntry}
    (hm : ∀ seq, coverOf m seq = coverOf [fNew, e] seq) (seq : UInt64) :
    coverOf (a ++ m ++ b) seq = coverOf (fNew :: (a ++ e :: b)) seq := by
  have := coverOf_insert_mid (n := [e]) (b := b) h.before hm seq
  simpa using this

/-- Putting `m` in place of `e` keeps the list tidy if `m` is tidy, apart
from the entries before and after it. -/
theorem mid_tidy (h : OverlapAt F fNew a e b) {m : List FldCacheEntry} (hm : Tidy m)
    (ham : ∀ x ∈ a, ∀ y ∈ m, Apart x y) (hmb : ∀ y ∈ m, ∀ z ∈ b, Apart y z) : Tidy (a ++ m ++ b) := by
  have hab : ∀ x ∈ a, ∀ z ∈ b, Apart x z := fun x hx z hz =>
    (List.pairwise_append.mp h.tidy.1).2.2 x hx z (by simp [hz])
  refine ⟨List.pairwise_append.mpr ⟨List.pairwise_append.mpr ⟨h.a_pairwise, hm.1, ham⟩,
    h.eb_pairwise.of_cons, fun y hy z hz => ?_⟩, h.mid_nonempty hm.2⟩
  rcases List.mem_append.mp hy with hy | hy
  · exact hab y hy z hz
  · exact hmb y hy z hz

/-- Putting `m` in place of `e`: the list the insertion hands on, if `m` is
of kind `F`, drawn from `fNew` and `e`, and answers as `fNew` in front of
`e`. -/
theorem fixInput (h : OverlapAt F fNew a e b) {m : List FldCacheEntry} (hs : FixShape (a ++ m ++ b))
    (hfl : AllFlags F m) (hd : Drawn [fNew, e] m) (hm : ∀ seq, coverOf m seq = coverOf [fNew, e] seq) :
    FixInput F (a ++ e :: b) fNew (a ++ m ++ b) :=
  ⟨hs, h.mid_flags hfl, mid_drawn hd, h.mid_cover hm⟩

end OverlapAt

section Cases

variable {F : UInt32} {fNew e : FldCacheEntry} {a b : List FldCacheEntry}

/-- The same index: `e` is widened over the new range. -/
theorem widen_fixInput (h : OverlapAt F fNew a e b) (hidx : e.fceRange.lsrIndex = fNew.fceRange.lsrIndex) :
    FixInput F (a ++ e :: b) fNew
      (a ++ { e with fceRange := { e.fceRange with lsrStart := min e.fceRange.lsrStart fNew.fceRange.lsrStart,
                                                   lsrEnd := max e.fceRange.lsrEnd fNew.fceRange.lsrEnd } } :: b) := by
  set e' : FldCacheEntry := { e with fceRange := { e.fceRange with lsrStart := min e.fceRange.lsrStart fNew.fceRange.lsrStart, lsrEnd := max e.fceRange.lsrEnd fNew.fceRange.lsrEnd } } with he'
  have hlo : e'.lo = min e.lo fNew.lo := by simp [he', FldCacheEntry.lo, UInt64.toNat_min]
  have hhi : e'.hi = max e.hi fNew.hi := by simp [he', FldCacheEntry.hi, UInt64.toNat_max]
  have hne := h.newNonempty
  have hov1 := h.startsBefore
  have hov2 := h.endsAfter
  have hs : FixShape (a ++ [e'] ++ b) := by
    -- `e'` is the entry out of place
    have hne' : AllNonempty [e'] := by
      intro x hx
      rw [List.mem_singleton.mp hx, hlo, hhi]
      omega
    rw [List.append_assoc, List.singleton_append]
    refine FixShape.mk (by simpa using h.mid_nonempty hne') (pairwise_snoc.mpr ⟨h.a_pairwise.imp Apart.before,
      fun x hx => ?_⟩) (h.eb_pairwise.of_cons.imp Apart.before) (fun x hx => ?_)
    · have := h.a_hi_le x hx
      show x.hi ≤ e'.lo
      omega
    · have := h.b_lo_ge x hx
      have := h.e_nonempty
      rw [hlo]
      omega
  have hd : Drawn [fNew, e] [e'] := fun x hx => by
    rw [List.mem_singleton.mp hx]
    exact ⟨⟨e, by simp, rfl⟩, ⟨e, by simp, rfl⟩⟩
  have hm : ∀ seq, coverOf [e'] seq = coverOf [fNew, e] seq := by
    intro seq
    have hmerge := rangeCover_or_merge fNew.fceRange e.fceRange e'.fceRange
      ⟨hidx.symm, h.newFlags.trans h.e_flags.symm⟩ ⟨rfl, rfl⟩ (fun s => by
        rw [within_iff_lo_hi e', within_iff_lo_hi fNew, within_iff_lo_hi e, hlo, hhi]
        omega) seq
    simp only [coverOf_cons, coverOf_nil, Option.or_none] at hmerge ⊢
    exact hmerge.symm
  simpa using h.fixInput hs (by simpa [AllFlags] using h.e_flags) hd hm

/-- Case 1: the new range covers `e`, which takes it over. -/
theorem replace_fixInput (h : OverlapAt F fNew a e b) (hcov : fNew.lo ≤ e.lo ∧ e.hi ≤ fNew.hi) :
    FixInput F (a ++ e :: b) fNew (a ++ { e with fceRange := fNew.fceRange } :: b) := by
  set e' : FldCacheEntry := { e with fceRange := fNew.fceRange } with he'
  have hs : FixShape (a ++ [e'] ++ b) := by
    -- `e'` is the entry out of place
    have hne' : AllNonempty [e'] := by
      intro x hx
      rw [List.mem_singleton.mp hx]
      exact h.newNonempty
    rw [List.append_assoc, List.singleton_append]
    refine FixShape.mk (by simpa using h.mid_nonempty hne') (pairwise_snoc.mpr ⟨h.a_pairwise.imp Apart.before,
      fun x hx => h.before x hx⟩) (h.eb_pairwise.of_cons.imp Apart.before) (fun x hx => ?_)
    have := h.b_lo_ge x hx
    have := h.e_nonempty
    show fNew.lo ≤ x.lo
    omega
  have hd : Drawn [fNew, e] [e'] := fun x hx => by
    rw [List.mem_singleton.mp hx]
    exact ⟨⟨e, by simp, rfl⟩, ⟨fNew, by simp, rfl⟩⟩
  have hm : ∀ seq, coverOf [e'] seq = coverOf [fNew, e] seq := by
    intro seq
    have hsub := rangeCover_or_of_subset fNew.fceRange e.fceRange (fun s => by
      rw [within_iff_lo_hi e, within_iff_lo_hi fNew]
      omega) seq
    simp only [coverOf_cons, coverOf_nil, Option.or_none] at hsub ⊢
    exact hsub.symm
  have hfl : AllFlags F [e'] := by
    intro x hx
    rw [List.mem_singleton.mp hx]
    exact h.newFlags
  simpa using h.fixInput hs hfl hd hm

/-- Case 3: the new range covers the start of `e`, which now starts where
the new range ends. -/
theorem trimStart_fixInput (h : OverlapAt F fNew a e b) (hle : fNew.lo ≤ e.lo) (hend : fNew.hi < e.hi) :
    FixInput F (a ++ e :: b) fNew
      (a ++ fNew :: { e with fceRange := { e.fceRange with lsrStart := fNew.fceRange.lsrEnd } } :: b) := by
  set e' : FldCacheEntry := { e with fceRange := { e.fceRange with lsrStart := fNew.fceRange.lsrEnd } } with he'
  have hne := h.newNonempty
  have hs : FixShape (a ++ [fNew, e'] ++ b) := by
    -- sorted throughout, with `fNew` out of place
    have hne' : AllNonempty [fNew, e'] := by
      intro x hx
      simp only [List.mem_cons, List.not_mem_nil, or_false] at hx
      rcases hx with rfl | rfl
      · exact hne
      · show fNew.hi < e.hi
        exact hend
    rw [List.append_assoc, List.cons_append]
    refine FixShape.mk (by simpa using h.mid_nonempty hne') (pairwise_snoc.mpr ⟨h.a_pairwise.imp Apart.before,
      fun x hx => h.before x hx⟩) ?_ (fun x hx => ?_)
    · refine List.Pairwise.cons (fun x hx => ?_) (h.eb_pairwise.of_cons.imp Apart.before)
      exact h.b_lo_ge x hx
    · rcases List.mem_cons.mp hx with rfl | hx
      · show fNew.lo ≤ fNew.hi
        omega
      · have := h.b_lo_ge x hx
        omega
  have hd : Drawn [fNew, e] [fNew, e'] := by
    intro x hx
    simp only [List.mem_cons, List.not_mem_nil, or_false] at hx
    rcases hx with rfl | rfl
    · exact Drawn.refl _ x (by simp)
    · exact ⟨⟨e, by simp, rfl⟩, ⟨e, by simp, rfl⟩⟩
  have hm : ∀ seq, coverOf [fNew, e'] seq = coverOf [fNew, e] seq := by
    intro seq
    have htrim := rangeCover_or_trim fNew.fceRange e.fceRange e'.fceRange ⟨rfl, rfl⟩ (fun s => by
      rw [within_iff_lo_hi e', within_iff_lo_hi e, within_iff_lo_hi fNew]
      have := h.endsAfter
      show fNew.hi ≤ s.toNat ∧ s.toNat < e.hi ↔ _
      omega) seq
    simp only [coverOf_cons, coverOf_nil, Option.or_none] at htrim ⊢
    exact htrim.symm
  have hfl : AllFlags F [fNew, e'] := by
    intro x hx
    simp only [List.mem_cons, List.not_mem_nil, or_false] at hx
    rcases hx with rfl | rfl
    · exact h.newFlags
    · exact h.e_flags
  simpa using h.fixInput hs hfl hd hm

/-- Case 4: the new range covers the end of `e`, which now ends where the
new range starts. -/
theorem trimEnd_fixInput (h : OverlapAt F fNew a e b) (hlt : e.lo < fNew.lo) (hend : e.hi < fNew.hi) :
    FixInput F (a ++ e :: b) fNew
      (a ++ { e with fceRange := { e.fceRange with lsrEnd := fNew.fceRange.lsrStart } } :: fNew :: b) := by
  set e' : FldCacheEntry := { e with fceRange := { e.fceRange with lsrEnd := fNew.fceRange.lsrStart } } with he'
  have hne := h.newNonempty
  have hov := h.startsBefore
  have hs : FixShape (a ++ [e', fNew] ++ b) := by
    -- `fNew` is out of place, after `e'`
    have hne' : AllNonempty [e', fNew] := by
      intro x hx
      simp only [List.mem_cons, List.not_mem_nil, or_false] at hx
      rcases hx with rfl | rfl
      · show e.lo < fNew.lo
        exact hlt
      · exact hne
    rw [show a ++ [e', fNew] ++ b = (a ++ [e']) ++ fNew :: b by simp]
    have hae : (a ++ [e']).Pairwise Before :=
      pairwise_snoc.mpr ⟨h.a_pairwise.imp Apart.before, fun x hx => (h.a_hi_le x hx).1⟩
    refine FixShape.mk (by simpa using h.mid_nonempty hne') (pairwise_snoc.mpr ⟨hae, fun x hx => ?_⟩)
      (h.eb_pairwise.of_cons.imp Apart.before) (fun x hx => ?_)
    · rcases List.mem_append.mp hx with hx | hx
      · exact h.before x hx
      · rw [List.mem_singleton.mp hx]
        exact Nat.le_refl _
    · have := h.b_lo_ge x hx
      omega
  have hd : Drawn [fNew, e] [e', fNew] := by
    intro x hx
    simp only [List.mem_cons, List.not_mem_nil, or_false] at hx
    rcases hx with rfl | rfl
    · exact ⟨⟨e, by simp, rfl⟩, ⟨e, by simp, rfl⟩⟩
    · exact Drawn.refl _ x (by simp)
  have hm : ∀ seq, coverOf [e', fNew] seq = coverOf [fNew, e] seq := by
    intro seq
    -- `e'` and the new range are disjoint, and `e'` is `e` less the new range
    have hcomm := rangeCover_or_comm e'.fceRange fNew.fceRange (fun s => by
      rw [within_iff_lo_hi e', within_iff_lo_hi fNew]
      show ¬ ((e.lo ≤ s.toNat ∧ s.toNat < fNew.lo) ∧ _)
      omega) seq
    have htrim := rangeCover_or_trim fNew.fceRange e.fceRange e'.fceRange ⟨rfl, rfl⟩ (fun s => by
      rw [within_iff_lo_hi e', within_iff_lo_hi e, within_iff_lo_hi fNew]
      show e.lo ≤ s.toNat ∧ s.toNat < fNew.lo ↔ _
      omega) seq
    simp only [coverOf_cons, coverOf_nil, Option.or_none]
    rw [hcomm, htrim]
  have hfl : AllFlags F [e', fNew] := by
    intro x hx
    simp only [List.mem_cons, List.not_mem_nil, or_false] at hx
    rcases hx with rfl | rfl
    · exact h.e_flags
    · exact h.newFlags
  simpa using h.fixInput hs hfl hd hm

/-- No overlap: the new range goes in after the entries that end before it
starts, and before the first entry that starts after it ends. -/
theorem addAfter_fixInput (htidy : Tidy (a ++ b)) (hfl : AllFlags F (a ++ b)) (hnf : fNew.fceRange.lsrFlags = F)
    (hne : fNew.lo < fNew.hi) (ha : ∀ x ∈ a, x.hi ≤ fNew.lo) (hb : ∀ x ∈ b.head?, fNew.hi < x.lo) :
    FixInput F (a ++ b) fNew (a ++ fNew :: b) := by
  have hpw := List.pairwise_append.mp htidy.1
  have hnab := AllNonempty.append.mp htidy.2
  refine ⟨?_, ?_, ?_, ?_⟩
  · refine FixShape.mk (AllNonempty.append.mpr ⟨hnab.1, fun x hx => ?_⟩)
      (pairwise_snoc.mpr ⟨hpw.1.imp Apart.before, ha⟩) (hpw.2.1.imp Apart.before) (fun x hx => ?_)
    · rcases List.mem_cons.mp hx with rfl | hx
      · exact hne
      · exact hnab.2 x hx
    · -- everything after starts no earlier than the first entry after
      cases b with
      | nil => cases hx
      | cons y b =>
        have hy := hb y (by simp)
        rcases List.mem_cons.mp hx with rfl | hx
        · omega
        · have := (List.rel_of_pairwise_cons hpw.2.1 hx).before
          have := hnab.2 y (by simp)
          unfold Before at *
          omega
  · intro x hx
    rcases List.mem_append.mp hx with hx | hx
    · exact hfl x (by simp [hx])
    · rcases List.mem_cons.mp hx with rfl | hx
      · exact hnf
      · exact hfl x (by simp [hx])
  · intro x hx
    have hmem : x ∈ fNew :: (a ++ b) := by
      rcases List.mem_append.mp hx with hx | hx
      · simp [hx]
      · rcases List.mem_cons.mp hx with rfl | hx <;> simp [*]
    exact Drawn.refl _ x hmem
  · intro seq
    have := coverOf_insert_mid (m := [fNew]) (n := []) (b := b) ha (fun _ => rfl) seq
    simpa using this

/-- Case 2 in a cache of MDT entries: `e` keeps what is before the new range,
the new range follows, and a new entry `fldt` with the index of `e` takes
what is after it. Each list `fld_cache_entry_add` hands to
`fld_fix_new_list` is already tidy. -/
theorem punchHole_tidy (h : OverlapAt luSeqRangeMdt fNew a e b)
    (hidx : e.fceRange.lsrIndex ≠ fNew.fceRange.lsrIndex) (hlt : e.lo < fNew.lo) (hend : fNew.hi < e.hi) (id : Nat) :
    Inserted luSeqRangeMdt (a ++ e :: b) fNew
      (a ++ [{ e with fceRange := { e.fceRange with lsrEnd := fNew.fceRange.lsrStart } }, fNew,
        { fceId := id, fceRange := { lsrStart := fNew.fceRange.lsrEnd, lsrEnd := e.fceRange.lsrEnd,
                                     lsrIndex := e.fceRange.lsrIndex, lsrFlags := 0 } }] ++ b) ∧
    Tidy (a ++ [{ e with fceRange := { e.fceRange with lsrEnd := fNew.fceRange.lsrStart } }, fNew] ++ b) := by
  set e' : FldCacheEntry := { e with fceRange := { e.fceRange with lsrEnd := fNew.fceRange.lsrStart } } with he'
  set fldt : FldCacheEntry := { fceId := id, fceRange := { lsrStart := fNew.fceRange.lsrEnd, lsrEnd := e.fceRange.lsrEnd, lsrIndex := e.fceRange.lsrIndex, lsrFlags := 0 } } with hfldt
  have hne := h.newNonempty
  have hidx' : fNew.fceRange.lsrIndex ≠ e.fceRange.lsrIndex := fun h' => hidx h'.symm
  have hm : Tidy [e', fNew, fldt] := by
    refine ⟨?_, ?_⟩
    · -- `e'` and `fNew`, and `fNew` and `fldt`, adjoin with other indexes
      refine List.Pairwise.cons ?_ (List.Pairwise.cons ?_ (List.pairwise_singleton _ _))
      · intro y hy
        simp only [List.mem_cons, List.not_mem_nil, or_false] at hy
        rcases hy with hy | hy <;> rw [hy]
        · exact .inr ⟨rfl, hidx⟩
        · exact .inl (show fNew.lo < fNew.hi from hne)
      · intro y hy
        rw [List.mem_singleton.mp hy]
        exact .inr ⟨rfl, hidx'⟩
    · intro y hy
      simp only [List.mem_cons, List.not_mem_nil, or_false] at hy
      rcases hy with hy | hy | hy <;> rw [hy]
      · exact hlt
      · exact hne
      · exact hend
  have ham : ∀ x ∈ a, ∀ y ∈ [e', fNew, fldt], Apart x y := by
    intro x hx y hy
    have hxe := h.a_apart x hx
    have hxle := (h.a_hi_le x hx).1
    simp only [List.mem_cons, List.not_mem_nil, or_false] at hy
    rcases hy with hy | hy | hy <;> rw [hy]
    · -- `e'` starts where `e` does, with its index
      exact hxe
    · exact .inl (show x.hi < fNew.lo by omega)
    · exact .inl (show x.hi < fNew.hi by omega)
  have hmb : ∀ y ∈ [e', fNew, fldt], ∀ z ∈ b, Apart y z := by
    intro y hy z hz
    have hez := h.b_apart z hz
    have hle := h.b_lo_ge z hz
    simp only [List.mem_cons, List.not_mem_nil, or_false] at hy
    rcases hy with hy | hy | hy <;> rw [hy]
    · exact .inl (show fNew.lo < z.lo by omega)
    · exact .inl (show fNew.hi < z.lo by omega)
    · -- `fldt` ends where `e` does, with its index
      exact hez
  have htidy := h.mid_tidy hm ham hmb
  refine ⟨⟨htidy, ?_, fun seq => ?_⟩, ?_⟩
  · refine h.mid_flags fun y hy => ?_
    simp only [List.mem_cons, List.not_mem_nil, or_false] at hy
    rcases hy with hy | hy | hy <;> rw [hy]
    · exact h.e_flags
    · exact h.newFlags
    · rfl
  · -- inside `e` the three entries answer as `fNew` in front of `e`, since `e` is an MDT range
    refine h.mid_cover (fun s => ?_) seq
    have hefl : e.fceRange.lsrFlags = 0 := h.e_flags
    have w1 := within_iff_lo_hi e' s
    have w2 := within_iff_lo_hi fNew s
    have w3 := within_iff_lo_hi fldt s
    have w4 := within_iff_lo_hi e s
    change _ ↔ e.lo ≤ s.toNat ∧ s.toNat < fNew.lo at w1
    change _ ↔ fNew.hi ≤ s.toNat ∧ s.toNat < e.hi at w3
    simp only [coverOf_cons, coverOf_nil, Option.or_none, rangeCover]
    by_cases hs1 : luSeqRangeWithin e'.fceRange s = true
    · -- before the new range: `e'` answers for `e`
      have h1 := w1.mp hs1
      have hs2 : ¬ luSeqRangeWithin fNew.fceRange s = true := fun h' => by
        have := w2.mp h'
        omega
      have hs4 : luSeqRangeWithin e.fceRange s = true := w4.mpr (by omega)
      rw [if_pos hs1, if_neg hs2, if_pos hs4, Option.some_or, Option.none_or]
    rw [if_neg hs1, Option.none_or]
    by_cases hs2 : luSeqRangeWithin fNew.fceRange s = true
    · rw [if_pos hs2, Option.some_or, Option.some_or]
    rw [if_neg hs2, Option.none_or, Option.none_or]
    by_cases hs3 : luSeqRangeWithin fldt.fceRange s = true
    · -- after the new range: `fldt` answers for `e`, with flags 0
      have h3 := w3.mp hs3
      have hs4 : luSeqRangeWithin e.fceRange s = true := w4.mpr (by omega)
      rw [if_pos hs3, if_pos hs4, hefl]
    · have hs4 : ¬ luSeqRangeWithin e.fceRange s = true := fun h' => by
        have := w4.mp h'
        by_cases hlo : s.toNat < fNew.lo
        · exact hs1 (w1.mpr (by omega))
        · by_cases hhi : s.toNat < fNew.hi
          · exact hs2 (w2.mpr (by omega))
          · exact hs3 (w3.mpr (by omega))
      rw [if_neg hs3, if_neg hs4]
  · -- the first list is a sublist of the second
    have hsub : (a ++ [e', fNew] ++ b).Sublist (a ++ [e', fNew, fldt] ++ b) := by
      refine List.Sublist.append (List.Sublist.append (List.Sublist.refl a) ?_) (List.Sublist.refl b)
      exact List.Sublist.cons_cons e' (List.Sublist.cons_cons fNew (List.Sublist.cons fldt (List.Sublist.refl [])))
    exact ⟨htidy.1.sublist hsub, htidy.2.sublist hsub⟩

end Cases

/-! ## The cache -/

/-- A cache of MDT entries as insertions keep it: a tidy list, with every
node below the next node number. -/
structure CacheInv (cache : FldCache) : Prop where
  tidy : Tidy cache.fciEntries
  flags : AllFlags luSeqRangeMdt cache.fciEntries
  fresh : ∀ e ∈ cache.fciEntries, e.fceId < cache.fciNextId

/-- What an insertion of `fNew` into the entries `l` should leave in the
cache: the invariant, and the answers of `fNew` in front of `l`. -/
def InsertedCache (l : List FldCacheEntry) (fNew : FldCacheEntry) (cache : FldCache) : Prop :=
  CacheInv cache ∧ ∀ seq, coverOf cache.fciEntries seq = coverOf (fNew :: l) seq

/-- The `LASSERT(new_start <= f_curr->fce_range.lsr_start)` of case 3 fails:
the entry the walk stops at has another index than the new range, starts
before it, and ends where it ends. -/
def Case3Lbug (curr range : LuSeqRange) : Prop :=
  curr.lsrIndex ≠ range.lsrIndex ∧ curr.lsrStart < range.lsrStart ∧ range.lsrEnd = curr.lsrEnd

instance (curr range : LuSeqRange) : Decidable (Case3Lbug curr range) := inferInstanceAs (Decidable (_ ∧ _ ∧ _))

theorem CacheInv.of_sublist {cache cache' : FldCache} (h : CacheInv cache)
    (hs : cache'.fciEntries.Sublist cache.fciEntries) (hn : cache'.fciNextId = cache.fciNextId) : CacheInv cache' :=
  ⟨⟨h.tidy.1.sublist hs, h.tidy.2.sublist hs⟩, fun e he => h.flags e (hs.subset he),
    fun e he => hn ▸ h.fresh e (hs.subset he)⟩

/-- `fld_cache_entry_add` of an entry that leaves the list tidy. -/
theorem fldCacheEntryAdd_of_tidy (cache : FldCache) (x : FldCacheEntry) (pos : Option Nat)
    (h : Tidy (insertAfter cache.fciEntries pos x)) (hfl : AllFlags luSeqRangeMdt (insertAfter cache.fciEntries pos x)) :
    ∃ c, fldCacheEntryAdd cache x pos = some c ∧ c.fciEntries = insertAfter cache.fciEntries pos x ∧
      c.fciNextId = cache.fciNextId := by
  rw [fldCacheEntryAdd, @fldFixNewList_of_tidy luSeqRangeMdt _ h hfl]
  exact ⟨_, rfl, rfl, rfl⟩

/-- `fld_fix_new_list` on what an insertion hands it. -/
theorem FixInput.fixup {l : List FldCacheEntry} {fNew : FldCacheEntry} {cache : FldCache}
    (h : FixInput luSeqRangeMdt l fNew cache.fciEntries) (hids : ∀ x ∈ fNew :: l, x.fceId < cache.fciNextId) :
    ∃ c, fldFixNewList cache = some c ∧ InsertedCache l fNew c := by
  obtain ⟨l', heq, htidy, hdr, hcov⟩ := fldFixNewList_spec h.shape h.flags
  refine ⟨_, heq, ⟨htidy, hdr.allFlags h.flags, ?_⟩, fun seq => (hcov seq).trans (h.cover seq)⟩
  exact (h.drawn.trans hdr).id_lt hids

/-- `fld_cache_entry_add` of what an insertion hands on. -/
theorem fldCacheEntryAdd_of_fixInput {l : List FldCacheEntry} {fNew : FldCacheEntry} (cache : FldCache)
    (pos : Option Nat) (h : FixInput luSeqRangeMdt l fNew (insertAfter cache.fciEntries pos fNew))
    (hids : ∀ x ∈ fNew :: l, x.fceId < cache.fciNextId) :
    ∃ c, fldCacheEntryAdd cache fNew pos = some c ∧ InsertedCache l fNew c :=
  @FixInput.fixup l fNew { cache with fciEntries := insertAfter cache.fciEntries pos fNew, fciLru := fNew.fceId :: cache.fciLru } h hids

theorem OverlapAt.ids {fNew e : FldCacheEntry} {a b : List FldCacheEntry} {N : Nat}
    (hfresh : ∀ x ∈ a ++ e :: b, x.fceId < fNew.fceId) (hnew : fNew.fceId < N) :
    ∀ x ∈ fNew :: (a ++ e :: b), x.fceId < N := by
  intro x hx
  rcases List.mem_cons.mp hx with rfl | hx
  · exact hnew
  · exact Nat.lt_trans (hfresh x hx) hnew

/-- `fld_cache_punch_hole` with its allocation granted, in a cache of MDT
entries. -/
theorem fldCachePunchHole_spec {cache : FldCache} {fNew e : FldCacheEntry} {a b : List FldCacheEntry}
    (hL : cache.fciEntries = a ++ e :: b) (h : OverlapAt luSeqRangeMdt fNew a e b)
    (hidx : e.fceRange.lsrIndex ≠ fNew.fceRange.lsrIndex) (hlt : e.lo < fNew.lo) (hend : fNew.hi < e.hi)
    (hfresh : ∀ x ∈ cache.fciEntries, x.fceId < fNew.fceId) (hnew : fNew.fceId < cache.fciNextId) :
    ∃ c, fldCachePunchHole cache a.length e.fceRange fNew true = some c ∧ InsertedCache cache.fciEntries fNew c := by
  obtain ⟨hins, htidy1⟩ := punchHole_tidy h hidx hlt hend cache.fciNextId
  set e' : FldCacheEntry := { e with fceRange := { e.fceRange with lsrEnd := fNew.fceRange.lsrStart } } with he'
  set fldt : FldCacheEntry := { fceId := cache.fciNextId, fceRange := { lsrStart := fNew.fceRange.lsrEnd, lsrEnd := e.fceRange.lsrEnd, lsrIndex := e.fceRange.lsrIndex, lsrFlags := 0 } } with hfldt
  set cache1 : FldCache := { cache.setRange a.length { e.fceRange with lsrEnd := fNew.fceRange.lsrStart } with fciNextId := cache.fciNextId + 1 } with hc1
  -- the first `fld_cache_entry_add` puts `fNew` after `e'`
  have hent1 : insertAfter cache1.fciEntries (some a.length) fNew = a ++ [e', fNew] ++ b := by
    have : cache1.fciEntries = a ++ e' :: b := by
      rw [hc1, setRange_entries, hL, modify_append_cons]
    rw [this, show a ++ e' :: b = (a ++ [e']) ++ b by simp, insertAfter_append fNew (by simp)]
    simp
  have hflags : AllFlags luSeqRangeMdt (a ++ [e', fNew, fldt] ++ b) := hins.flags
  have hsub : (a ++ [e', fNew] ++ b).Sublist (a ++ [e', fNew, fldt] ++ b) :=
    List.Sublist.append (List.Sublist.append (List.Sublist.refl a)
      (List.Sublist.cons_cons e' (List.Sublist.cons_cons fNew (List.Sublist.cons fldt (List.Sublist.refl []))))) (List.Sublist.refl b)
  obtain ⟨c1, hadd1, hc1e, hc1n⟩ := fldCacheEntryAdd_of_tidy cache1 fNew (some a.length) (by rw [hent1]; exact htidy1)
    (by rw [hent1]; exact fun x hx => hflags x (hsub.subset hx))
  -- `fNew` is found right after `e'`: the nodes before it are older
  have hpos : c1.fciEntries.findIdx? (·.fceId = fNew.fceId) = some (a.length + 1) := by
    rw [hc1e, hent1, List.append_assoc, List.findIdx?_append]
    have hnone : a.findIdx? (·.fceId = fNew.fceId) = none := by
      rw [List.findIdx?_eq_none_iff]
      intro x hx
      have := hfresh x (by rw [hL]; simp [hx])
      simp only [decide_eq_false_iff_not]
      omega
    have he'id : e'.fceId ≠ fNew.fceId := by
      have := hfresh e (by rw [hL]; simp)
      show e.fceId ≠ fNew.fceId
      omega
    rw [hnone, Option.none_or]
    simp [List.findIdx?_cons, he'id]
    omega
  -- the second puts `fldt` after `fNew`
  have hent2 : insertAfter c1.fciEntries (some (a.length + 1)) fldt = a ++ [e', fNew, fldt] ++ b := by
    rw [hc1e, hent1, show a ++ [e', fNew] ++ b = (a ++ [e', fNew]) ++ b by simp, insertAfter_append fldt (by simp)]
    simp
  obtain ⟨c2, hadd2, hc2e, hc2n⟩ := fldCacheEntryAdd_of_tidy c1 fldt (some (a.length + 1)) (by rw [hent2]; exact hins.tidy)
    (by rw [hent2]; exact hflags)
  refine ⟨c2, ?_, ⟨⟨?_, ?_, ?_⟩, ?_⟩⟩
  · rw [fldCachePunchHole, if_neg (by decide)]
    show (fldCacheEntryAdd cache1 fNew (some a.length)).bind _ = _
    rw [hadd1, Option.bind_some]
    show fldCacheEntryAdd c1 fldt (c1.fciEntries.findIdx? (·.fceId = fNew.fceId)) = _
    rw [hpos, hadd2]
  · rw [hc2e, hent2]
    exact hins.tidy
  · rw [hc2e, hent2]
    exact hflags
  · -- every node is older than `fldt`, which takes the next number
    rw [hc2e, hent2, hc2n, hc1n]
    intro x hx
    have hold : ∀ y ∈ a ++ e :: b, y.fceId < cache.fciNextId := fun y hy =>
      Nat.lt_trans (hfresh y (hL ▸ hy)) hnew
    simp only [List.append_assoc, List.cons_append, List.nil_append, List.mem_append, List.mem_cons] at hx
    show x.fceId < cache.fciNextId + 1
    rcases hx with hx | rfl | rfl | rfl | hx
    · have := hold x (by simp [hx])
      omega
    · have := hold e (by simp)
      show e.fceId < cache.fciNextId + 1
      omega
    · omega
    · show cache.fciNextId < cache.fciNextId + 1
      omega
    · have := hold x (by simp [hx])
      omega
  · intro seq
    rw [hc2e, hent2, hins.cover seq, hL]

/-- An outcome that is `some c` with `c` as wanted: it fails exactly when
`Q` holds, so never. -/
theorem outcome_of_some {x : Option FldCache} {P : FldCache → Prop} {Q : Prop} {c : FldCache}
    (hx : x = some c) (hc : P c) (hQ : ¬ Q) : (x = none ↔ Q) ∧ ∀ c', x = some c' → P c' := by
  subst hx
  refine ⟨⟨fun h => (by cases h), fun h => absurd h hQ⟩, fun c' h => ?_⟩
  cases h
  exact hc

/-- `fld_cache_overlap_handle` at the entry the walk stopped at, in a cache
of MDT entries with the allocation granted: it trips the `LASSERT` of case
3 exactly when `Case3Lbug` holds, and otherwise inserts the new range. -/
theorem fldCacheOverlapHandle_spec {cache : FldCache} {fNew e : FldCacheEntry} {a b : List FldCacheEntry}
    (hL : cache.fciEntries = a ++ e :: b) (h : OverlapAt luSeqRangeMdt fNew a e b)
    (hfresh : ∀ x ∈ cache.fciEntries, x.fceId < fNew.fceId) (hnew : fNew.fceId < cache.fciNextId) :
    (fldCacheOverlapHandle cache a.length e.fceRange fNew true = none ↔ Case3Lbug e.fceRange fNew.fceRange) ∧
      ∀ c, fldCacheOverlapHandle cache a.length e.fceRange fNew true = some c →
        InsertedCache cache.fciEntries fNew c := by
  have hids : ∀ x ∈ fNew :: cache.fciEntries, x.fceId < cache.fciNextId := by
    rw [hL]
    exact OverlapAt.ids (hL ▸ hfresh) hnew
  have hset : ∀ r : LuSeqRange, (cache.setRange a.length r).fciEntries = a ++ { e with fceRange := r } :: b := by
    intro r
    rw [setRange_entries, hL, modify_append_cons]
  have hov1 := h.startsBefore
  have hov2 := h.endsAfter
  simp only [fldCacheOverlapHandle]
  by_cases h1 : e.fceRange.lsrIndex = fNew.fceRange.lsrIndex
  · -- the same index: widen `e`, then fix the list up
    rw [if_pos h1]
    have hin : FixInput luSeqRangeMdt cache.fciEntries fNew (cache.setRange a.length
        { e.fceRange with lsrStart := min e.fceRange.lsrStart fNew.fceRange.lsrStart,
                          lsrEnd := max e.fceRange.lsrEnd fNew.fceRange.lsrEnd }).fciEntries := by
      rw [hset, hL]
      exact widen_fixInput h h1
    obtain ⟨c, hc, hcache⟩ := hin.fixup hids
    exact outcome_of_some hc hcache (fun h3 => h3.1 h1)
  rw [if_neg h1]
  by_cases h2 : fNew.fceRange.lsrStart ≤ e.fceRange.lsrStart ∧ e.fceRange.lsrEnd ≤ fNew.fceRange.lsrEnd
  · -- case 1
    rw [if_pos h2]
    have hin : FixInput luSeqRangeMdt cache.fciEntries fNew (cache.setRange a.length fNew.fceRange).fciEntries := by
      rw [hset, hL]
      exact replace_fixInput h ⟨UInt64.le_iff_toNat_le.mp h2.1, UInt64.le_iff_toNat_le.mp h2.2⟩
    obtain ⟨c, hc, hcache⟩ := hin.fixup hids
    exact outcome_of_some hc hcache (fun h3 => absurd h2.1 (UInt64.not_le.mpr h3.2.1))
  rw [if_neg h2]
  by_cases h3 : e.fceRange.lsrStart < fNew.fceRange.lsrStart ∧ fNew.fceRange.lsrEnd < e.fceRange.lsrEnd
  · -- case 2: punch a hole
    rw [if_pos h3]
    obtain ⟨c, hc, hcache⟩ := fldCachePunchHole_spec hL h h1 (UInt64.lt_iff_toNat_lt.mp h3.1)
      (UInt64.lt_iff_toNat_lt.mp h3.2) hfresh hnew
    exact outcome_of_some hc hcache (fun h4 => (UInt64.lt_irrefl _) (h4.2.2 ▸ h3.2))
  rw [if_neg h3]
  by_cases h4 : fNew.fceRange.lsrEnd ≤ e.fceRange.lsrEnd
  · rw [if_pos h4]
    by_cases h5 : fNew.fceRange.lsrStart ≤ e.fceRange.lsrStart
    · -- case 3: `e` starts where the new range ends
      rw [if_neg (not_not.mpr h5)]
      have hend : fNew.hi < e.hi := by
        have : ¬ e.fceRange.lsrEnd ≤ fNew.fceRange.lsrEnd := fun h' => h2 ⟨h5, h'⟩
        exact UInt64.lt_iff_toNat_lt.mp (UInt64.not_le.mp this)
      have hin : FixInput luSeqRangeMdt cache.fciEntries fNew
          (insertAfter (cache.setRange a.length { e.fceRange with lsrStart := fNew.fceRange.lsrEnd }).fciEntries
            (if a.length = 0 then none else some (a.length - 1)) fNew) := by
        rw [hset, insertAfter_append fNew rfl, hL]
        exact trimStart_fixInput h (UInt64.le_iff_toNat_le.mp h5) hend
      obtain ⟨c, hc, hcache⟩ := fldCacheEntryAdd_of_fixInput _ _ hin hids
      exact outcome_of_some hc hcache (fun h6 => absurd h5 (UInt64.not_le.mpr h6.2.1))
    · -- case 3 with the new range starting inside `e`: the `LASSERT` fires
      rw [if_pos h5]
      refine ⟨⟨fun _ => ⟨h1, UInt64.not_le.mp h5, ?_⟩, fun _ => rfl⟩, fun c hc => by cases hc⟩
      have : ¬ fNew.fceRange.lsrEnd < e.fceRange.lsrEnd := fun h' => h3 ⟨UInt64.not_le.mp h5, h'⟩
      exact UInt64.le_antisymm h4 (UInt64.not_lt.mp this)
  rw [if_neg h4]
  have hend : e.hi < fNew.hi := UInt64.lt_iff_toNat_lt.mp (UInt64.not_le.mp h4)
  by_cases h6 : e.fceRange.lsrStart ≤ fNew.fceRange.lsrStart
  · -- case 4: `e` ends where the new range starts
    rw [if_pos h6, if_neg (not_not.mpr (UInt64.le_of_lt (UInt64.not_le.mp h4)))]
    have hlt : e.lo < fNew.lo := by
      have : ¬ fNew.fceRange.lsrStart ≤ e.fceRange.lsrStart := fun h' => h2 ⟨h', UInt64.le_of_lt (UInt64.not_le.mp h4)⟩
      exact UInt64.lt_iff_toNat_lt.mp (UInt64.not_le.mp this)
    have hin : FixInput luSeqRangeMdt cache.fciEntries fNew
        (insertAfter (cache.setRange a.length { e.fceRange with lsrEnd := fNew.fceRange.lsrStart }).fciEntries
          (some a.length) fNew) := by
      rw [hset, show ∀ x : FldCacheEntry, a ++ x :: b = (a ++ [x]) ++ b by simp, insertAfter_append fNew (by simp), hL]
      simpa using trimEnd_fixInput h hlt hend
    obtain ⟨c, hc, hcache⟩ := fldCacheEntryAdd_of_fixInput _ _ hin hids
    exact outcome_of_some hc hcache (fun h7 => h4 (by rw [h7.2.2]; exact UInt64.le_refl _))
  · -- no case applies: the new range would cover `e`, which case 1 took
    exfalso
    exact h2 ⟨UInt64.le_of_lt (UInt64.not_le.mp h6), UInt64.le_of_lt (UInt64.not_le.mp h4)⟩

/-! ## Shrinking and insertion -/

theorem entryDelete_sublist (cache : FldCache) (id : Nat) :
    (cache.entryDelete id).fciEntries.Sublist cache.fciEntries := List.filter_sublist

/-- Shrinking only deletes entries. -/
theorem fldCacheShrinkLoop_sublist (fuel : Nat) (cache : FldCache) :
    (fldCacheShrinkLoop fuel cache).fciEntries.Sublist cache.fciEntries ∧
      (fldCacheShrinkLoop fuel cache).fciNextId = cache.fciNextId := by
  induction fuel generalizing cache with
  | zero => exact ⟨List.Sublist.refl _, rfl⟩
  | succ fuel ih =>
    rw [fldCacheShrinkLoop]
    split
    · split
      · obtain ⟨h1, h2⟩ := ih (cache.entryDelete _)
        exact ⟨h1.trans (entryDelete_sublist _ _), h2⟩
      · exact ⟨List.Sublist.refl _, rfl⟩
    · exact ⟨List.Sublist.refl _, rfl⟩

theorem fldCacheShrink_sublist (cache : FldCache) :
    (fldCacheShrink cache).fciEntries.Sublist cache.fciEntries ∧ (fldCacheShrink cache).fciNextId = cache.fciNextId := by
  unfold fldCacheShrink
  split
  · exact ⟨List.Sublist.refl _, rfl⟩
  · exact fldCacheShrinkLoop_sublist _ _

theorem CacheInv.shrink {cache : FldCache} (h : CacheInv cache) : CacheInv (fldCacheShrink cache) :=
  h.of_sublist (fldCacheShrink_sublist cache).1 (fldCacheShrink_sublist cache).2

/-- Shrinking does not look at the next node number. -/
theorem fldCacheShrinkLoop_setNextId (fuel : Nat) (cache : FldCache) (n : Nat) :
    fldCacheShrinkLoop fuel { cache with fciNextId := n } = { fldCacheShrinkLoop fuel cache with fciNextId := n } := by
  induction fuel generalizing cache with
  | zero => rfl
  | succ fuel ih =>
    simp only [fldCacheShrinkLoop]
    split
    · rename_i id hid
      rw [if_congr Iff.rfl rfl rfl]
      split
      · exact ih (cache.entryDelete id)
      · rfl
    · rfl

theorem fldCacheShrink_setNextId (cache : FldCache) (n : Nat) :
    fldCacheShrink { cache with fciNextId := n } = { fldCacheShrink cache with fciNextId := n } := by
  unfold fldCacheShrink
  split
  · rfl
  · exact fldCacheShrinkLoop_setNextId _ _ _

/-- `fld_cache_insert_nolock` of a non-empty MDT range into a cache of MDT
entries, with every allocation granted: it trips the `LASSERT` of case 3
exactly when the entry its walk stops at has another index, starts before
the new range and ends where it ends; otherwise it inserts the range into
the shrunk cache. -/
theorem fldCacheInsertNolock_spec {cache : FldCache} {fNew : FldCacheEntry} (hinv : CacheInv cache)
    (hnf : fNew.fceRange.lsrFlags = luSeqRangeMdt) (hne : fNew.lo < fNew.hi)
    (hfresh : ∀ x ∈ cache.fciEntries, x.fceId < fNew.fceId) (hnew : fNew.fceId < cache.fciNextId) :
    (fldCacheInsertNolock cache fNew true = none ↔
      ∃ i curr, fldCacheInsertPos fNew.fceRange 0 none (fldCacheShrink cache).fciEntries = .overlap i curr ∧
        Case3Lbug curr fNew.fceRange) ∧
      ∀ c, fldCacheInsertNolock cache fNew true = some c → InsertedCache (fldCacheShrink cache).fciEntries fNew c := by
  have hs := hinv.shrink
  obtain ⟨hsub, hnext⟩ := fldCacheShrink_sublist cache
  have hfresh' : ∀ x ∈ (fldCacheShrink cache).fciEntries, x.fceId < fNew.fceId := fun x hx => hfresh x (hsub.subset hx)
  have hnew' : fNew.fceId < (fldCacheShrink cache).fciNextId := hnext ▸ hnew
  have hfl : AllFlags fNew.fceRange.lsrFlags (fldCacheShrink cache).fciEntries := hnf ▸ hs.flags
  simp only [fldCacheInsertNolock]
  rcases fldCacheInsertPos_spec fNew.fceRange 0 none _ hfl with ⟨a, b, hab, ha, hb, hpos⟩ | ⟨a, e, b, hL, ha, hov1, hov2, hpos⟩
  · -- no overlap: the new range is added after the entries before it
    rw [hpos]
    have hin : FixInput luSeqRangeMdt (fldCacheShrink cache).fciEntries fNew
        (insertAfter (fldCacheShrink cache).fciEntries (if a.length = 0 then none else some (0 + a.length - 1)) fNew) := by
      rw [hab, insertAfter_append fNew (by simp)]
      exact addAfter_fixInput (hab ▸ hs.tidy) (hab ▸ hs.flags) hnf hne ha hb
    have hids : ∀ x ∈ fNew :: (fldCacheShrink cache).fciEntries, x.fceId < (fldCacheShrink cache).fciNextId := by
      intro x hx
      rcases List.mem_cons.mp hx with rfl | hx
      · exact hnew'
      · exact Nat.lt_trans (hfresh' x hx) hnew'
    obtain ⟨c, hc, hcache⟩ := fldCacheEntryAdd_of_fixInput _ _ hin hids
    refine outcome_of_some hc hcache ?_
    rintro ⟨i, curr, hov, -⟩
    cases hov
  · -- the walk stopped at `e`
    rw [hpos]
    have h : OverlapAt luSeqRangeMdt fNew a e b := ⟨hL ▸ hs.tidy, hL ▸ hs.flags, hnf, hne, ha, hov1, hov2⟩
    obtain ⟨hiff, hsome⟩ := fldCacheOverlapHandle_spec hL h hfresh' hnew'
    rw [Nat.zero_add]
    refine ⟨hiff.trans ⟨fun h3 => ⟨_, _, rfl, h3⟩, ?_⟩, hsome⟩
    rintro ⟨i, curr, hov, h3⟩
    cases hov
    exact h3

/-- `fld_cache_insert(cache, range)` of a non-empty MDT range into a cache of
MDT entries, with the hole punched getting its entry: it fails by the
`LASSERT` of case 3 exactly as `fld_cache_insert_nolock` does; it returns
`-ENOMEM` with the cache as it was when no entry can be created; and on
success it inserts the range, with a new node, into the shrunk cache. -/
theorem fldCacheInsert_spec {cache : FldCache} {range : LuSeqRange} {createOk : Bool} (hinv : CacheInv cache)
    (hflags : range.lsrFlags = luSeqRangeMdt) (hne : range.lsrStart < range.lsrEnd) :
    (fldCacheInsert cache range createOk true = none ↔ createOk = true ∧
      ∃ i curr, fldCacheInsertPos range 0 none (fldCacheShrink cache).fciEntries = .overlap i curr ∧ Case3Lbug curr range) ∧
    ∀ rc c, fldCacheInsert cache range createOk true = some (rc, c) →
      (rc = -enomem ∧ c = cache) ∨ (rc = 0 ∧ InsertedCache (fldCacheShrink cache).fciEntries ⟨cache.fciNextId, range⟩ c) := by
  have hsane : luSeqRangeIsSane range = true := by
    simp only [luSeqRangeIsSane, ge_iff_le, decide_eq_true_eq]
    exact UInt64.le_of_lt hne
  unfold fldCacheInsert
  rw [if_neg (not_not.mpr hsane)]
  cases createOk with
  | false =>
    refine ⟨⟨fun h => (by cases h), fun h => (by cases h.1)⟩, fun rc c h => ?_⟩
    simp only [Bool.false_eq_true, not_false_eq_true, if_true, Option.some.injEq, Prod.mk.injEq] at h
    exact .inl ⟨h.1.symm, h.2.symm⟩
  | true =>
    simp only [not_true_eq_false, if_false, true_and]
    -- the new entry takes the next node number
    have hinv1 : CacheInv { cache with fciNextId := cache.fciNextId + 1 } :=
      ⟨hinv.tidy, hinv.flags, fun e he => Nat.lt_succ_of_lt (hinv.fresh e he)⟩
    have hspec := @fldCacheInsertNolock_spec _ ⟨cache.fciNextId, range⟩ hinv1 hflags
      (UInt64.lt_iff_toNat_lt.mp hne) hinv.fresh (Nat.lt_succ_self _)
    rw [fldCacheShrink_setNextId] at hspec
    obtain ⟨hiff, hsome⟩ := hspec
    refine ⟨by rw [Option.map_eq_none_iff]; exact hiff, fun rc c h => ?_⟩
    obtain ⟨c', hc', heq⟩ := Option.map_eq_some_iff.mp h
    simp only [Prod.mk.injEq] at heq
    exact .inr ⟨heq.1.symm, heq.2 ▸ hsome c' hc'⟩

end Lustre.Fld
