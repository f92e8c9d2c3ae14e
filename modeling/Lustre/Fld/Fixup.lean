import Mathlib
import Lustre.Fld.Cache

/-! # What `fld_fix_new_list` does

The FLD cache answers a lookup of `seq` from the first entry that contains it
(`coverOf`); this module shows that `fld_fix_new_list` keeps those answers,
that it terminates, and that on the lists an insertion hands it (one kind of
entry, sorted but for the one entry the insertion put in or widened) it never
trips an `LASSERT` and leaves the list sorted, disjoint and merged.

One walk of the list is described once by `fldFixPass_cons`: each pair of
adjacent entries is an `LASSERT`, a move (`FixMove`: the walk goes on) or a
restart (`FixRestart`: an overlap resolved, the walk starts again). Every
other fact about the walk is derived from these two relations.
-/

namespace Lustre.Fld

/-! ## What the cache answers -/

theorem luSeqRangeWithin_iff (r : LuSeqRange) (seq : UInt64) :
    luSeqRangeWithin r seq = true ↔ r.lsrStart.toNat ≤ seq.toNat ∧ seq.toNat < r.lsrEnd.toNat := by
  simp [luSeqRangeWithin, UInt64.le_iff_toNat_le, UInt64.lt_iff_toNat_lt]

theorem luSeqRangeIsSane_iff (r : LuSeqRange) : luSeqRangeIsSane r = true ↔ r.lsrStart.toNat ≤ r.lsrEnd.toNat := by
  simp [luSeqRangeIsSane, UInt64.le_iff_toNat_le]

/-- The location a range gives `seq`: its index and flags. -/
def rangeCover (r : LuSeqRange) (seq : UInt64) : Option (UInt32 × UInt32) :=
  if luSeqRangeWithin r seq then some (r.lsrIndex, r.lsrFlags) else none

/-- The location the first entry containing `seq` gives it. -/
def coverOf : List FldCacheEntry → UInt64 → Option (UInt32 × UInt32)
  | [], _ => none
  | e :: rest, seq => (rangeCover e.fceRange seq).or (coverOf rest seq)

@[simp] theorem coverOf_nil (seq : UInt64) : coverOf [] seq = none := rfl

@[simp] theorem coverOf_cons (e : FldCacheEntry) (rest : List FldCacheEntry) (seq : UInt64) :
    coverOf (e :: rest) seq = (rangeCover e.fceRange seq).or (coverOf rest seq) := rfl

theorem coverOf_append (a b : List FldCacheEntry) (seq : UInt64) :
    coverOf (a ++ b) seq = (coverOf a seq).or (coverOf b seq) := by
  induction a with
  | nil => rfl
  | cons e a ih => rw [List.cons_append, coverOf_cons, coverOf_cons, ih, Option.or_assoc]

/-- Replacing a segment of the list by one that gives every sequence the
same location keeps the answers of the whole list. -/
theorem coverOf_congr_mid (a m m' b : List FldCacheEntry) (h : ∀ seq, coverOf m seq = coverOf m' seq)
    (seq : UInt64) : coverOf (a ++ m ++ b) seq = coverOf (a ++ m' ++ b) seq := by
  rw [coverOf_append, coverOf_append, coverOf_append, coverOf_append, h]

/-! ## Two adjacent entries -/

section Pair

variable (c n r : LuSeqRange)

/-- Two entries that give the same location merge into one covering both. -/
theorem rangeCover_or_merge (hc : c.lsrIndex = r.lsrIndex ∧ c.lsrFlags = r.lsrFlags)
    (hn : n.lsrIndex = r.lsrIndex ∧ n.lsrFlags = r.lsrFlags)
    (hiff : ∀ seq, luSeqRangeWithin r seq = true ↔ luSeqRangeWithin c seq = true ∨ luSeqRangeWithin n seq = true)
    (seq : UInt64) : (rangeCover c seq).or (rangeCover n seq) = rangeCover r seq := by
  unfold rangeCover
  by_cases hcs : luSeqRangeWithin c seq = true
  · simp [hcs, (hiff seq).mpr (.inl hcs), hc]
  · by_cases hns : luSeqRangeWithin n seq = true
    · simp [hcs, hns, (hiff seq).mpr (.inr hns), hn]
    · have hrs : ¬ luSeqRangeWithin r seq = true := fun h => ((hiff seq).mp h).elim hcs hns
      simp [hcs, hns, hrs]

/-- An entry inside the one before it is shadowed by it. -/
theorem rangeCover_or_of_subset (hsub : ∀ seq, luSeqRangeWithin n seq = true → luSeqRangeWithin c seq = true)
    (seq : UInt64) : (rangeCover c seq).or (rangeCover n seq) = rangeCover c seq := by
  unfold rangeCover
  by_cases hcs : luSeqRangeWithin c seq = true
  · simp [hcs]
  · simp [hcs, mt (hsub seq) hcs]

/-- Cutting from an entry what the one before it covers changes nothing. -/
theorem rangeCover_or_trim (hv : r.lsrIndex = n.lsrIndex ∧ r.lsrFlags = n.lsrFlags)
    (hiff : ∀ seq, luSeqRangeWithin r seq = true ↔ luSeqRangeWithin n seq = true ∧ ¬ luSeqRangeWithin c seq = true)
    (seq : UInt64) : (rangeCover c seq).or (rangeCover n seq) = (rangeCover c seq).or (rangeCover r seq) := by
  unfold rangeCover
  by_cases hcs : luSeqRangeWithin c seq = true
  · simp [hcs]
  · by_cases hns : luSeqRangeWithin n seq = true
    · simp [hcs, hns, (hiff seq).mpr ⟨hns, hcs⟩, hv]
    · have hrs : ¬ luSeqRangeWithin r seq = true := fun h => hns ((hiff seq).mp h).1
      simp [hcs, hns, hrs]

/-- An empty entry covers nothing. -/
theorem rangeCover_of_empty (he : c.lsrEnd.toNat ≤ c.lsrStart.toNat) (seq : UInt64) : rangeCover c seq = none := by
  have hnot : ¬ luSeqRangeWithin c seq = true := by
    rw [luSeqRangeWithin_iff]
    omega
  simp [rangeCover, hnot]

end Pair

/-! ## Entries as intervals -/

/-- Where an entry starts. -/
def FldCacheEntry.lo (e : FldCacheEntry) : Nat := e.fceRange.lsrStart.toNat
/-- Where an entry ends. -/
def FldCacheEntry.hi (e : FldCacheEntry) : Nat := e.fceRange.lsrEnd.toNat

theorem within_iff_lo_hi (e : FldCacheEntry) (seq : UInt64) :
    luSeqRangeWithin e.fceRange seq = true ↔ e.lo ≤ seq.toNat ∧ seq.toNat < e.hi :=
  luSeqRangeWithin_iff e.fceRange seq

@[simp] theorem FldCacheEntry.lo_withStart (n : FldCacheEntry) (s : UInt64) :
    ({ n with fceRange := { n.fceRange with lsrStart := s } } : FldCacheEntry).lo = s.toNat := rfl

@[simp] theorem FldCacheEntry.hi_withStart (n : FldCacheEntry) (s : UInt64) :
    ({ n with fceRange := { n.fceRange with lsrStart := s } } : FldCacheEntry).hi = n.hi := rfl

/-- `a` ends where `b` starts or before. -/
def Before (a b : FldCacheEntry) : Prop := a.hi ≤ b.lo

/-- `a` ends before `b` starts, or where `b` starts with another index, so
that the walk does not merge them. -/
def Apart (a b : FldCacheEntry) : Prop :=
  a.hi < b.lo ∨ (a.hi = b.lo ∧ a.fceRange.lsrIndex ≠ b.fceRange.lsrIndex)

theorem Apart.before {a b : FldCacheEntry} (h : Apart a b) : Before a b := by
  unfold Apart Before at *
  omega

/-- Every entry is non-empty. -/
def AllNonempty (l : List FldCacheEntry) : Prop := ∀ e ∈ l, e.lo < e.hi

theorem AllNonempty.append {a b : List FldCacheEntry} : AllNonempty (a ++ b) ↔ AllNonempty a ∧ AllNonempty b := by
  simp only [AllNonempty, List.mem_append]
  exact ⟨fun h => ⟨fun e he => h e (.inl he), fun e he => h e (.inr he)⟩,
    fun h e he => he.elim (h.1 e) (h.2 e)⟩

theorem AllNonempty.sublist {a b : List FldCacheEntry} (h : AllNonempty b) (hs : a.Sublist b) : AllNonempty a :=
  fun e he => h e (hs.subset he)

/-- The list a cache keeps: non-empty entries, each ending before the next
starts, and no two that the walk would merge. -/
def Tidy (l : List FldCacheEntry) : Prop := l.Pairwise Apart ∧ AllNonempty l

/-- All entries have flags `F`. -/
def AllFlags (F : UInt32) (l : List FldCacheEntry) : Prop := ∀ e ∈ l, e.fceRange.lsrFlags = F

theorem pairwise_snoc {R : FldCacheEntry → FldCacheEntry → Prop} {l : List FldCacheEntry} {x : FldCacheEntry} :
    (l ++ [x]).Pairwise R ↔ l.Pairwise R ∧ ∀ a ∈ l, R a x := by
  simp [List.pairwise_append]

/-! ## One step of `fld_fix_new_list` -/

/-- What a walk does with `f_curr = c` and `f_next = n` when it goes on:
`k` joins the entries behind and `c'` is the next `f_curr`. -/
inductive FixMove (c n : FldCacheEntry) : List FldCacheEntry → FldCacheEntry → Prop
  /-- `c` stays: it has other flags than `n`, or ends before `n` without
  merging into it -/
  | keep (hsane : c.lo ≤ c.hi)
      (hord : c.fceRange.lsrFlags ≠ n.fceRange.lsrFlags ∨ (c.lo ≤ n.lo ∧ Apart c n)) : FixMove c n [c] n
  /-- `c` adjoins `n` with the same index: `n` takes it over -/
  | merge (hsane : c.lo ≤ c.hi) (hadj : c.hi = n.lo) (hidx : c.fceRange.lsrIndex = n.fceRange.lsrIndex)
      (hfl : c.fceRange.lsrFlags = n.fceRange.lsrFlags) :
      FixMove c n [] { n with fceRange := { n.fceRange with lsrStart := c.fceRange.lsrStart } }
  /-- `c` is an empty duplicate of `n` -/
  | dedupe (hsane : c.lo ≤ c.hi) (hempty : c.hi ≤ c.lo) (hlo : c.lo = n.lo) : FixMove c n [] n

/-- What a walk puts in place of `c` and `n` when they overlap, before it
starts again. -/
inductive FixRestart (c n : FldCacheEntry) : List FldCacheEntry → Prop
  /-- the same index: `n` widens over both -/
  | widen (hsane : c.lo ≤ c.hi) (hle : c.lo ≤ n.lo) (hov : n.lo < c.hi)
      (hidx : c.fceRange.lsrIndex = n.fceRange.lsrIndex) (hfl : c.fceRange.lsrFlags = n.fceRange.lsrFlags) :
      FixRestart c n
        [{ n with fceRange := { n.fceRange with lsrStart := c.fceRange.lsrStart, lsrEnd := max c.fceRange.lsrEnd n.fceRange.lsrEnd } }]
  /-- `n` lies inside `c`: it takes the range of `c`, and `c` goes -/
  | replace (hsane : c.lo ≤ c.hi) (hle : c.lo ≤ n.lo) (hov : n.lo < c.hi) (hend : n.hi ≤ c.hi) :
      FixRestart c n [{ n with fceRange := c.fceRange }]
  /-- `n` reaches beyond `c`: it starts where `c` ends -/
  | trim (hsane : c.lo ≤ c.hi) (hle : c.lo ≤ n.lo) (hov : n.lo < c.hi) (hend : c.hi < n.hi) :
      FixRestart c n [c, { n with fceRange := { n.fceRange with lsrStart := c.fceRange.lsrEnd } }]

/-- One pair of the walk: an `LASSERT` on an insane `c` or one that starts
after `n`, a move, or a restart. -/
theorem fldFixPass_cons (acc : List FldCacheEntry) (c n : FldCacheEntry) (rest : List FldCacheEntry) :
    (fldFixPass acc c (n :: rest) = .lbug ∧
      (c.hi < c.lo ∨ (c.fceRange.lsrFlags = n.fceRange.lsrFlags ∧ n.lo < c.lo))) ∨
      (∃ k c', FixMove c n k c' ∧ fldFixPass acc c (n :: rest) = fldFixPass (acc ++ k) c' rest) ∨
      (∃ m, FixRestart c n m ∧ fldFixPass acc c (n :: rest) = .restart (acc ++ m ++ rest)) := by
  rw [fldFixPass]
  by_cases h1 : luSeqRangeIsSane c.fceRange = true
  swap
  · rw [if_pos h1]
    exact .inl ⟨rfl, .inl (by simpa [luSeqRangeIsSane_iff, FldCacheEntry.lo, FldCacheEntry.hi] using h1)⟩
  have hsane : c.lo ≤ c.hi := (luSeqRangeIsSane_iff c.fceRange).mp h1
  rw [if_neg (not_not.mpr h1)]
  by_cases h2 : c.fceRange.lsrFlags = n.fceRange.lsrFlags
  swap
  · rw [if_pos (show c.fceRange.lsrFlags ≠ n.fceRange.lsrFlags from h2)]
    exact .inr (.inl ⟨_, _, .keep hsane (.inl h2), rfl⟩)
  rw [if_neg (show ¬ c.fceRange.lsrFlags ≠ n.fceRange.lsrFlags from not_not.mpr h2)]
  by_cases h3 : c.fceRange.lsrStart ≤ n.fceRange.lsrStart
  swap
  · rw [if_pos h3]
    exact .inl ⟨rfl, .inr ⟨h2, UInt64.lt_iff_toNat_lt.mp (UInt64.not_le.mp h3)⟩⟩
  have hle : c.lo ≤ n.lo := UInt64.le_iff_toNat_le.mp h3
  rw [if_neg (not_not.mpr h3)]
  by_cases h4 : c.fceRange.lsrEnd = n.fceRange.lsrStart
  · -- adjoining
    have hadj : c.hi = n.lo := congrArg UInt64.toNat h4
    rw [if_pos h4]
    by_cases h5 : c.fceRange.lsrIndex = n.fceRange.lsrIndex
    · rw [if_neg (show ¬ c.fceRange.lsrIndex ≠ n.fceRange.lsrIndex from not_not.mpr h5)]
      exact .inr (.inl ⟨_, _, .merge hsane hadj h5 h2, by rw [List.append_nil]⟩)
    · rw [if_pos (show c.fceRange.lsrIndex ≠ n.fceRange.lsrIndex from h5)]
      exact .inr (.inl ⟨_, _, .keep hsane (.inr ⟨hle, .inr ⟨hadj, h5⟩⟩), rfl⟩)
  have hnadj : c.hi ≠ n.lo := fun h => h4 (UInt64.toNat_inj.mp h)
  rw [if_neg h4]
  by_cases h6 : n.fceRange.lsrStart < c.fceRange.lsrEnd
  · -- overlapping: one of the three restarts
    have hov : n.lo < c.hi := UInt64.lt_iff_toNat_lt.mp h6
    rw [if_pos h6]
    by_cases h7 : c.fceRange.lsrIndex = n.fceRange.lsrIndex
    · rw [if_pos h7]
      exact .inr (.inr ⟨_, .widen hsane hle hov h7 h2, by simp⟩)
    rw [if_neg h7]
    by_cases h8 : n.fceRange.lsrEnd ≤ c.fceRange.lsrEnd
    · rw [if_pos h8]
      exact .inr (.inr ⟨_, .replace hsane hle hov (UInt64.le_iff_toNat_le.mp h8), by simp⟩)
    · rw [if_neg h8]
      exact .inr (.inr ⟨_, .trim hsane hle hov (UInt64.lt_iff_toNat_lt.mp (UInt64.not_le.mp h8)), by simp⟩)
  have hnov : c.hi ≤ n.lo := UInt64.le_iff_toNat_le.mp (UInt64.not_lt.mp h6)
  rw [if_neg h6]
  by_cases h9 : c.fceRange.lsrStart = n.fceRange.lsrStart ∧ c.fceRange.lsrEnd = n.fceRange.lsrEnd
  · have hlo : c.lo = n.lo := congrArg UInt64.toNat h9.1
    rw [if_pos h9]
    exact .inr (.inl ⟨_, _, .dedupe hsane (by omega) hlo, by rw [List.append_nil]⟩)
  · rw [if_neg h9]
    exact .inr (.inl ⟨_, _, .keep hsane (.inr ⟨hle, .inl (Nat.lt_of_le_of_ne hnov hnadj)⟩), rfl⟩)

/-- The last pair: the walk ends. -/
theorem fldFixPass_nil (acc : List FldCacheEntry) (c : FldCacheEntry) (hc : c.lo ≤ c.hi) :
    fldFixPass acc c [] = .done (acc ++ [c]) := by
  rw [fldFixPass, if_pos ((luSeqRangeIsSane_iff c.fceRange).mpr hc)]

theorem FixMove.nonempty {c n c' : FldCacheEntry} {k : List FldCacheEntry} (h : FixMove c n k c')
    (hc : c.lo < c.hi) (hn : n.lo < n.hi) : AllNonempty (k ++ [c']) := by
  cases h with
  | keep => simpa [AllNonempty] using ⟨hc, hn⟩
  | merge hsane hadj =>
    simp only [AllNonempty, List.nil_append, List.mem_singleton, forall_eq, FldCacheEntry.lo_withStart,
      FldCacheEntry.hi_withStart]
    unfold FldCacheEntry.lo FldCacheEntry.hi at *
    omega
  | dedupe => simpa [AllNonempty] using hn

theorem FixRestart.nonempty {c n : FldCacheEntry} {m : List FldCacheEntry} (h : FixRestart c n m)
    (hc : c.lo < c.hi) : AllNonempty m := by
  cases h with
  | widen hsane hle hov =>
    intro e he
    simp only [List.mem_singleton] at he
    subst he
    unfold FldCacheEntry.lo FldCacheEntry.hi at *
    dsimp only
    rw [UInt64.toNat_max]
    omega
  | replace =>
    intro e he
    simp only [List.mem_singleton] at he
    subst he
    exact hc
  | trim hsane hle hov hend =>
    intro e he
    simp only [List.mem_cons, List.not_mem_nil, or_false] at he
    rcases he with rfl | rfl
    · exact hc
    · exact hend

/-! ## A walk keeps what the cache answers -/

theorem FixMove.cover {c n c' : FldCacheEntry} {k : List FldCacheEntry} (h : FixMove c n k c')
    (hn : n.lo ≤ n.hi) (seq : UInt64) : coverOf (k ++ [c']) seq = coverOf [c, n] seq := by
  cases h with
  | keep => rfl
  | merge hsane hadj hidx hfl =>
    have hmerge := rangeCover_or_merge c.fceRange n.fceRange { n.fceRange with lsrStart := c.fceRange.lsrStart }
      ⟨hidx, hfl⟩ ⟨rfl, rfl⟩ (fun s => by
        rw [luSeqRangeWithin_iff, within_iff_lo_hi, within_iff_lo_hi]
        dsimp only
        unfold FldCacheEntry.lo FldCacheEntry.hi at *
        omega) seq
    simp only [List.nil_append, coverOf_cons, coverOf_nil, Option.or_none] at hmerge ⊢
    exact hmerge.symm
  | dedupe hsane hempty hlo =>
    simp only [List.nil_append, coverOf_cons, rangeCover_of_empty c.fceRange hempty, Option.none_or]

theorem FixRestart.cover {c n : FldCacheEntry} {m : List FldCacheEntry} (h : FixRestart c n m) (seq : UInt64) :
    coverOf m seq = coverOf [c, n] seq := by
  cases h with
  | widen hsane hle hov hidx hfl =>
    have hmerge := rangeCover_or_merge c.fceRange n.fceRange
      { n.fceRange with lsrStart := c.fceRange.lsrStart, lsrEnd := max c.fceRange.lsrEnd n.fceRange.lsrEnd }
      ⟨hidx, hfl⟩ ⟨rfl, rfl⟩ (fun s => by
        rw [luSeqRangeWithin_iff, within_iff_lo_hi, within_iff_lo_hi]
        dsimp only
        rw [UInt64.toNat_max]
        unfold FldCacheEntry.lo FldCacheEntry.hi at *
        omega) seq
    simp only [coverOf_cons, coverOf_nil, Option.or_none] at hmerge ⊢
    exact hmerge.symm
  | replace hsane hle hov hend =>
    have hsub := rangeCover_or_of_subset c.fceRange n.fceRange (fun s => by
      rw [within_iff_lo_hi, within_iff_lo_hi]
      omega) seq
    simp only [coverOf_cons, coverOf_nil, Option.or_none] at hsub ⊢
    exact hsub.symm
  | trim hsane hle hov hend =>
    have htrim := rangeCover_or_trim c.fceRange n.fceRange { n.fceRange with lsrStart := c.fceRange.lsrEnd }
      ⟨rfl, rfl⟩ (fun s => by
        rw [luSeqRangeWithin_iff, within_iff_lo_hi, within_iff_lo_hi]
        dsimp only
        unfold FldCacheEntry.lo FldCacheEntry.hi at *
        omega) seq
    simp only [coverOf_cons, coverOf_nil, Option.or_none] at htrim ⊢
    exact htrim.symm

/-- A walk that finishes or restarts over non-empty entries gives every
sequence the location the list gave it. -/
theorem fldFixPass_cover {acc : List FldCacheEntry} {c : FldCacheEntry} {rest l : List FldCacheEntry}
    (hne : AllNonempty (c :: rest))
    (h : fldFixPass acc c rest = .done l ∨ fldFixPass acc c rest = .restart l) (seq : UInt64) :
    coverOf l seq = coverOf (acc ++ c :: rest) seq := by
  induction rest generalizing acc c with
  | nil =>
    rw [fldFixPass_nil acc c (Nat.le_of_lt (hne c (by simp)))] at h
    rcases h with h | h <;> cases h
    rfl
  | cons n rest ih =>
    have hc : c.lo < c.hi := hne c (by simp)
    have hn : n.lo < n.hi := hne n (by simp)
    have hrest : AllNonempty rest := fun e he => hne e (by simp [he])
    rcases fldFixPass_cons acc c n rest with ⟨hl, -⟩ | ⟨k, c', hmove, heq⟩ | ⟨m, hrs, heq⟩
    · rw [hl] at h
      simp at h
    · rw [heq] at h
      -- the walk goes on from `c'` with `k` behind
      have hc' : AllNonempty (c' :: rest) := by
        intro e he
        rcases List.mem_cons.mp he with rfl | he
        · exact hmove.nonempty hc hn e (by simp)
        · exact hrest e he
      calc coverOf l seq = coverOf (acc ++ k ++ c' :: rest) seq := ih hc' h
        _ = coverOf (acc ++ (k ++ [c']) ++ rest) seq := by simp
        _ = coverOf (acc ++ [c, n] ++ rest) seq :=
          coverOf_congr_mid acc _ [c, n] rest (hmove.cover (Nat.le_of_lt hn)) seq
        _ = coverOf (acc ++ c :: n :: rest) seq := by simp
    · rw [heq] at h
      have hl : acc ++ m ++ rest = l := by simpa using h
      rw [← hl, coverOf_congr_mid acc m [c, n] rest hrs.cover seq]
      simp

/-! ## A walk keeps the nodes and the kinds -/

/-- Every entry of `l'` has the node of an entry of `l` and the flags of
one. -/
def Drawn (l l' : List FldCacheEntry) : Prop :=
  ∀ e ∈ l', (∃ a ∈ l, a.fceId = e.fceId) ∧ ∃ a ∈ l, a.fceRange.lsrFlags = e.fceRange.lsrFlags

theorem Drawn.refl (l : List FldCacheEntry) : Drawn l l := fun e he => ⟨⟨e, he, rfl⟩, ⟨e, he, rfl⟩⟩

theorem Drawn.trans {l l' l'' : List FldCacheEntry} (h : Drawn l l') (h' : Drawn l' l'') : Drawn l l'' := by
  intro e he
  obtain ⟨⟨a, ha, hid⟩, ⟨b, hb, hfl⟩⟩ := h' e he
  obtain ⟨⟨a', ha', hid'⟩, -⟩ := h a ha
  obtain ⟨-, ⟨b', hb', hfl'⟩⟩ := h b hb
  exact ⟨⟨a', ha', hid'.trans hid⟩, ⟨b', hb', hfl'.trans hfl⟩⟩

/-- Rewriting a segment of the list draws on the segment it replaces. -/
theorem Drawn.mid (a b : List FldCacheEntry) {m m' : List FldCacheEntry} (h : Drawn m m') :
    Drawn (a ++ m ++ b) (a ++ m' ++ b) := by
  intro e he
  simp only [List.mem_append] at he
  rcases he with (he | he) | he
  · exact Drawn.refl _ e (by simp [he])
  · obtain ⟨⟨x, hx, hid⟩, ⟨y, hy, hfl⟩⟩ := h e he
    exact ⟨⟨x, by simp [hx], hid⟩, ⟨y, by simp [hy], hfl⟩⟩
  · exact Drawn.refl _ e (by simp [he])

theorem Drawn.sublist {l l' : List FldCacheEntry} (h : l'.Sublist l) : Drawn l l' :=
  fun e he => Drawn.refl l e (h.subset he)

/-- Entries drawn from entries of kind `F` are of kind `F`. -/
theorem Drawn.allFlags {F : UInt32} {l l' : List FldCacheEntry} (h : Drawn l l') (hf : AllFlags F l) :
    AllFlags F l' := by
  intro e he
  obtain ⟨-, ⟨a, ha, hfl⟩⟩ := h e he
  rw [← hfl]
  exact hf a ha

/-- Entries drawn from nodes below `N` have nodes below `N`. -/
theorem Drawn.id_lt {N : Nat} {l l' : List FldCacheEntry} (h : Drawn l l') (hid : ∀ e ∈ l, e.fceId < N) :
    ∀ e ∈ l', e.fceId < N := by
  intro e he
  obtain ⟨⟨a, ha, hida⟩, -⟩ := h e he
  rw [← hida]
  exact hid a ha

theorem FixMove.drawn {c n c' : FldCacheEntry} {k : List FldCacheEntry} (h : FixMove c n k c') :
    Drawn [c, n] (k ++ [c']) := by
  cases h with
  | keep => exact Drawn.refl _
  | merge => simp [Drawn]
  | dedupe => simp [Drawn]

theorem FixRestart.drawn {c n : FldCacheEntry} {m : List FldCacheEntry} (h : FixRestart c n m) : Drawn [c, n] m := by
  cases h with
  | widen => simp [Drawn]
  | replace => simp [Drawn]
  | trim =>
    intro e he
    simp only [List.mem_cons, List.not_mem_nil, or_false] at he
    rcases he with rfl | rfl
    · exact Drawn.refl [e, n] e (by simp)
    · exact ⟨⟨n, by simp, rfl⟩, ⟨n, by simp, rfl⟩⟩

/-- A walk that finishes or restarts draws every entry from the list. -/
theorem fldFixPass_drawn {acc : List FldCacheEntry} {c : FldCacheEntry} {rest l : List FldCacheEntry}
    (h : fldFixPass acc c rest = .done l ∨ fldFixPass acc c rest = .restart l) : Drawn (acc ++ c :: rest) l := by
  induction rest generalizing acc c with
  | nil =>
    simp only [fldFixPass] at h
    split at h <;> simp_all [Drawn.refl]
  | cons n rest ih =>
    rcases fldFixPass_cons acc c n rest with ⟨hl, -⟩ | ⟨k, c', hmove, heq⟩ | ⟨m, hrs, heq⟩
    · rw [hl] at h
      simp at h
    · rw [heq] at h
      have hmid := Drawn.mid acc rest hmove.drawn
      have hl := ih h
      simp only [List.append_assoc, List.cons_append, List.nil_append] at hmid hl
      exact hmid.trans hl
    · rw [heq] at h
      have hl : acc ++ m ++ rest = l := by simpa using h
      rw [← hl]
      have hmid := Drawn.mid acc rest hrs.drawn
      simpa using hmid

/-! ## Every restart makes the list smaller -/

/-- The number of entries and their total width: every restart of
`fld_fix_new_list` lowers it. -/
def fixMeasure (l : List FldCacheEntry) : Nat := l.length + (l.map (·.fceRange.width)).sum

theorem fixMeasure_append (a b : List FldCacheEntry) : fixMeasure (a ++ b) = fixMeasure a + fixMeasure b := by
  simp only [fixMeasure, List.length_append, List.map_append, List.sum_append]
  omega

theorem fixMeasure_pair (c n : FldCacheEntry) : fixMeasure [c, n] = 2 + (c.hi - c.lo) + (n.hi - n.lo) := by
  simp only [fixMeasure, List.length_cons, List.length_nil, List.map_cons, List.map_nil, List.sum_cons,
    List.sum_nil, LuSeqRange.width, FldCacheEntry.lo, FldCacheEntry.hi]
  omega

theorem FixMove.measure_le {c n c' : FldCacheEntry} {k : List FldCacheEntry} (h : FixMove c n k c') :
    fixMeasure (k ++ [c']) ≤ fixMeasure [c, n] := by
  rw [fixMeasure_pair]
  cases h with
  | keep => rw [← fixMeasure_pair]; exact Nat.le_refl _
  | merge hsane hadj =>
    simp only [fixMeasure, List.nil_append, List.length_singleton, List.map_cons, List.map_nil, List.sum_cons,
      List.sum_nil, LuSeqRange.width]
    unfold FldCacheEntry.lo FldCacheEntry.hi at *
    omega
  | dedupe hsane hempty =>
    simp only [fixMeasure, List.nil_append, List.length_singleton, List.map_cons, List.map_nil, List.sum_cons,
      List.sum_nil, LuSeqRange.width]
    unfold FldCacheEntry.lo FldCacheEntry.hi at *
    omega

theorem FixRestart.measure_lt {c n : FldCacheEntry} {m : List FldCacheEntry} (h : FixRestart c n m) :
    fixMeasure m < fixMeasure [c, n] := by
  rw [fixMeasure_pair]
  cases h with
  | widen hsane hle hov =>
    simp only [fixMeasure, List.length_singleton, List.map_cons, List.map_nil, List.sum_cons, List.sum_nil,
      LuSeqRange.width]
    unfold FldCacheEntry.lo FldCacheEntry.hi at *
    rw [UInt64.toNat_max]
    omega
  | replace =>
    simp only [fixMeasure, List.length_singleton, List.map_cons, List.map_nil, List.sum_cons, List.sum_nil,
      LuSeqRange.width, FldCacheEntry.lo, FldCacheEntry.hi]
    omega
  | trim hsane hle hov hend =>
    simp only [fixMeasure, List.length_cons, List.length_nil, List.map_cons, List.map_nil, List.sum_cons,
      List.sum_nil, LuSeqRange.width]
    unfold FldCacheEntry.lo FldCacheEntry.hi at *
    omega

/-- A walk that restarts leaves a list of smaller measure. -/
theorem fldFixPass_measure {acc : List FldCacheEntry} {c : FldCacheEntry} {rest l : List FldCacheEntry}
    (h : fldFixPass acc c rest = .restart l) : fixMeasure l < fixMeasure (acc ++ c :: rest) := by
  induction rest generalizing acc c with
  | nil =>
    simp only [fldFixPass] at h
    split at h <;> cases h
  | cons n rest ih =>
    have hsplit : fixMeasure (acc ++ c :: n :: rest) = fixMeasure acc + fixMeasure [c, n] + fixMeasure rest := by
      rw [show acc ++ c :: n :: rest = acc ++ [c, n] ++ rest by simp, fixMeasure_append, fixMeasure_append]
    rcases fldFixPass_cons acc c n rest with ⟨hl, -⟩ | ⟨k, c', hmove, heq⟩ | ⟨m, hrs, heq⟩
    · rw [hl] at h
      cases h
    · rw [heq] at h
      have hle := hmove.measure_le
      have hlt := ih h
      rw [show acc ++ k ++ c' :: rest = acc ++ (k ++ [c']) ++ rest by simp, fixMeasure_append,
        fixMeasure_append] at hlt
      omega
    · rw [heq] at h
      have hl : acc ++ m ++ rest = l := by simpa using h
      rw [← hl, fixMeasure_append, fixMeasure_append, hsplit]
      have := hrs.measure_lt
      omega

/-! ## The lists an insertion hands to the walk -/

/-- Non-empty entries, sorted and disjoint but for one entry `x`: it starts
where the entries before it end or later, and no later than the entries
after it start, but may reach over them. An insertion leaves the list so,
with `x` the entry it has put in or widened. -/
def FixShape (l : List FldCacheEntry) : Prop :=
  AllNonempty l ∧ (l = [] ∨ ∃ a x b, l = a ++ x :: b ∧ (a ++ [x]).Pairwise Before ∧ b.Pairwise Before ∧
    ∀ e ∈ b, x.lo ≤ e.lo)

theorem FixShape.mk {a b : List FldCacheEntry} {x : FldCacheEntry} (hne : AllNonempty (a ++ x :: b))
    (hax : (a ++ [x]).Pairwise Before) (hb : b.Pairwise Before) (hxb : ∀ e ∈ b, x.lo ≤ e.lo) :
    FixShape (a ++ x :: b) :=
  ⟨hne, .inr ⟨a, x, b, rfl, hax, hb, hxb⟩⟩

/-- A sorted list has the shape, with its head as the entry out of place. -/
theorem FixShape.of_pairwise {l : List FldCacheEntry} (h : l.Pairwise Before) (hne : AllNonempty l) :
    FixShape l := by
  cases l with
  | nil => exact ⟨hne, .inl rfl⟩
  | cons x b =>
    refine FixShape.mk (a := []) hne (List.pairwise_singleton _ _) h.of_cons (fun e he => ?_)
    have hx := hne x (by simp)
    have hxe : Before x e := List.rel_of_pairwise_cons h he
    unfold Before at hxe
    omega

/-- The head of a list of this shape is the entry out of place, with the
rest sorted and starting after it, or it ends before the next entry and the
rest has the shape. -/
theorem FixShape.cons_cases {c n : FldCacheEntry} {rest : List FldCacheEntry} (h : FixShape (c :: n :: rest)) :
    ((n :: rest).Pairwise Before ∧ ∀ e ∈ n :: rest, c.lo ≤ e.lo) ∨ (Before c n ∧ FixShape (n :: rest)) := by
  obtain ⟨hne, hnil | ⟨a, x, b, heq, hax, hb, hxb⟩⟩ := h
  · cases hnil
  cases a with
  | nil =>
    -- `c` is the entry out of place
    simp only [List.nil_append, List.cons.injEq] at heq
    obtain ⟨rfl, rfl⟩ := heq
    exact .inl ⟨hb, hxb⟩
  | cons a0 a =>
    -- `c` is in the sorted part before it
    simp only [List.cons_append, List.cons.injEq] at heq
    obtain ⟨rfl, heq⟩ := heq
    have hax' := List.pairwise_cons.mp hax
    have hn : n ∈ a ++ [x] := by
      cases a with
      | nil =>
        simp only [List.nil_append, List.cons.injEq] at heq
        simp [heq.1]
      | cons a1 a =>
        simp only [List.cons_append, List.cons.injEq] at heq
        simp [heq.1]
    exact .inr ⟨hax'.1 n hn, fun e he => hne e (List.mem_cons_of_mem c he), .inr ⟨a, x, b, heq, hax'.2, hb, hxb⟩⟩

theorem FixShape.head_le {c n : FldCacheEntry} {rest : List FldCacheEntry} (h : FixShape (c :: n :: rest)) :
    c.lo ≤ n.lo := by
  have hc := h.1 c (by simp)
  rcases h.cons_cases with ⟨-, hle⟩ | ⟨hcn, -⟩
  · exact hle n (by simp)
  · unfold Before at hcn
    omega

theorem FixShape.tail {c n : FldCacheEntry} {rest : List FldCacheEntry} (h : FixShape (c :: n :: rest)) :
    FixShape (n :: rest) := by
  rcases h.cons_cases with ⟨hsorted, -⟩ | ⟨-, hs⟩
  · exact FixShape.of_pairwise hsorted (fun e he => h.1 e (List.mem_cons_of_mem c he))
  · exact hs

/-- Giving the head an earlier start, with the same end, keeps the shape. -/
theorem FixShape.widen_head {n n' : FldCacheEntry} {rest : List FldCacheEntry} (h : FixShape (n :: rest))
    (hlo : n'.lo ≤ n.lo) (hhi : n'.hi = n.hi) (hne' : n'.lo < n'.hi) : FixShape (n' :: rest) := by
  obtain ⟨hne, hnil | ⟨a, x, b, heq, hax, hb, hxb⟩⟩ := h
  · cases hnil
  have hall : AllNonempty (n' :: rest) := by
    intro e he
    rcases List.mem_cons.mp he with rfl | he
    · exact hne'
    · exact hne e (List.mem_cons_of_mem n he)
  cases a with
  | nil =>
    simp only [List.nil_append, List.cons.injEq] at heq
    obtain ⟨rfl, rfl⟩ := heq
    exact FixShape.mk (a := []) hall (List.pairwise_singleton _ _) hb (fun e he => Nat.le_trans hlo (hxb e he))
  | cons a0 a =>
    simp only [List.cons_append, List.cons.injEq] at heq
    obtain ⟨rfl, heq⟩ := heq
    rw [heq] at hall ⊢
    refine FixShape.mk (a := n' :: a) hall ?_ hb hxb
    -- `n'` ends where `n` ends
    have hax' := List.pairwise_cons.mp hax
    refine List.pairwise_cons.mpr ⟨fun e he => ?_, hax'.2⟩
    have := hax'.1 e he
    unfold Before at *
    omega

/-- An overlap is only found at the entry out of place. -/
theorem FixShape.of_overlap {c n : FldCacheEntry} {rest : List FldCacheEntry} (h : FixShape (c :: n :: rest))
    (hov : n.lo < c.hi) : (n :: rest).Pairwise Before ∧ ∀ e ∈ n :: rest, c.lo ≤ e.lo := by
  rcases h.cons_cases with hx | ⟨hcn, -⟩
  · exact hx
  · unfold Before at hcn
    omega

theorem apart_push {acc : List FldCacheEntry} {c n : FldCacheEntry} (hacc : (acc ++ [c]).Pairwise Apart)
    (hc : c.lo < c.hi) (hcn : Apart c n) : (acc ++ [c] ++ [n]).Pairwise Apart := by
  obtain ⟨-, hlt⟩ := pairwise_snoc.mp hacc
  refine pairwise_snoc.mpr ⟨hacc, fun a ha => ?_⟩
  rcases List.mem_append.mp ha with ha | ha
  · -- `a` ends before `c`, which is not empty
    have hac := (hlt a ha).before
    have hcn' := hcn.before
    unfold Before at hac hcn'
    exact .inl (by omega)
  · simp only [List.mem_singleton] at ha
    subst ha
    exact hcn

theorem apart_replace {acc : List FldCacheEntry} {c n : FldCacheEntry} (hacc : (acc ++ [c]).Pairwise Apart)
    (hlo : c.lo = n.lo) (hidx : c.fceRange.lsrIndex = n.fceRange.lsrIndex) : (acc ++ [n]).Pairwise Apart := by
  have ⟨hpw, hlt⟩ := pairwise_snoc.mp hacc
  refine pairwise_snoc.mpr ⟨hpw, fun a ha => ?_⟩
  rcases hlt a ha with h | ⟨heq, hne⟩
  · exact .inl (by omega)
  · exact .inr ⟨by omega, by rw [← hidx]; exact hne⟩

theorem before_replace {acc : List FldCacheEntry} {c x : FldCacheEntry} (hacc : (acc ++ [c]).Pairwise Apart)
    (hlo : c.lo ≤ x.lo) : (acc ++ [x]).Pairwise Before := by
  have ⟨hpw, hlt⟩ := pairwise_snoc.mp hacc
  refine pairwise_snoc.mpr ⟨hpw.imp Apart.before, fun a ha => ?_⟩
  have := (hlt a ha).before
  unfold Before at *
  omega

/-- A restart, which only happens at the entry out of place, leaves a list
of the same shape. -/
theorem FixRestart.shape {acc : List FldCacheEntry} {c n : FldCacheEntry} {rest m : List FldCacheEntry}
    (h : FixRestart c n m) (hacc : (acc ++ [c]).Pairwise Apart) (hneacc : AllNonempty acc)
    (hs : FixShape (c :: n :: rest)) : FixShape (acc ++ m ++ rest) := by
  have hc : c.lo < c.hi := hs.1 c (by simp)
  have hrest : AllNonempty rest := fun e he => hs.1 e (by simp [he])
  have hnem : AllNonempty (acc ++ m ++ rest) :=
    AllNonempty.append.mpr ⟨AllNonempty.append.mpr ⟨hneacc, h.nonempty hc⟩, hrest⟩
  have hov : n.lo < c.hi := by cases h <;> assumption
  obtain ⟨hsorted, hle⟩ := hs.of_overlap hov
  have hrs : rest.Pairwise Before := hsorted.of_cons
  cases h with
  | widen =>
    -- `n` widened over `c` is the entry out of place
    rw [List.append_assoc, List.singleton_append] at hnem ⊢
    exact FixShape.mk hnem (before_replace hacc (Nat.le_refl _) ) hrs (fun e he => hle e (by simp [he]))
  | replace =>
    rw [List.append_assoc, List.singleton_append] at hnem ⊢
    exact FixShape.mk hnem (before_replace hacc (Nat.le_refl _)) hrs (fun e he => hle e (by simp [he]))
  | trim hsane hle' hov' hend =>
    -- `n` cut to start where `c` ends is
    have hb := before_replace hacc (Nat.le_refl c.lo)
    rw [show acc ++ [c, { n with fceRange := { n.fceRange with lsrStart := c.fceRange.lsrEnd } }] ++ rest =
      (acc ++ [c]) ++ { n with fceRange := { n.fceRange with lsrStart := c.fceRange.lsrEnd } } :: rest by simp]
      at hnem ⊢
    refine FixShape.mk hnem (pairwise_snoc.mpr ⟨hb, fun a ha => ?_⟩) hrs (fun e he => ?_)
    · have hac : a.hi ≤ c.hi := by
        rcases List.mem_append.mp ha with ha | ha
        · have := (pairwise_snoc.mp hb).2 a ha
          unfold Before at this
          omega
        · simp only [List.mem_singleton] at ha
          subst ha
          exact Nat.le_refl _
      exact hac
    · have hne : Before n e := List.rel_of_pairwise_cons hsorted he
      unfold Before at hne
      show c.hi ≤ e.lo
      omega

/-- A walk over a list of one kind with one entry out of place never trips
an `LASSERT`: it finishes with the list tidy, or restarts on a list of the
same shape. The entries behind are apart from each other and from `c`. -/
theorem fldFixPass_walk {F : UInt32} {acc : List FldCacheEntry} {c : FldCacheEntry} {rest : List FldCacheEntry}
    (hacc : (acc ++ [c]).Pairwise Apart) (hneacc : AllNonempty acc) (hs : FixShape (c :: rest))
    (hfl : AllFlags F (c :: rest)) :
    (∃ l, fldFixPass acc c rest = .done l ∧ Tidy l) ∨ (∃ l, fldFixPass acc c rest = .restart l ∧ FixShape l) := by
  induction rest generalizing acc c with
  | nil =>
    have hc : c.lo < c.hi := hs.1 c (by simp)
    refine .inl ⟨acc ++ [c], fldFixPass_nil acc c (Nat.le_of_lt hc), hacc, ?_⟩
    exact AllNonempty.append.mpr ⟨hneacc, by simpa [AllNonempty] using hc⟩
  | cons n rest ih =>
    have hc : c.lo < c.hi := hs.1 c (by simp)
    have hn : n.lo < n.hi := hs.1 n (by simp)
    have hcn : c.fceRange.lsrFlags = n.fceRange.lsrFlags := by rw [hfl c (by simp), hfl n (by simp)]
    have hfl' : AllFlags F (n :: rest) := fun e he => hfl e (List.mem_cons_of_mem c he)
    rcases fldFixPass_cons acc c n rest with ⟨-, hbug⟩ | ⟨k, c', hmove, heq⟩ | ⟨m, hrs, heq⟩
    · -- the `LASSERT`s hold: `c` is sane and starts no later than `n`
      have := hs.head_le
      rcases hbug with hbug | ⟨-, hbug⟩ <;> omega
    · rw [heq]
      cases hmove with
      | keep hsane hord =>
        have hap : Apart c n := by
          rcases hord with hne | ⟨-, hap⟩
          · exact absurd hcn hne
          · exact hap
        exact ih (apart_push hacc hc hap) (AllNonempty.append.mpr ⟨hneacc, by simpa [AllNonempty] using hc⟩)
          hs.tail hfl'
      | merge hsane hadj hidx =>
        -- `n` takes over the start of `c`
        rw [List.append_nil]
        refine ih (apart_replace hacc rfl hidx) hneacc (hs.tail.widen_head ?_ rfl ?_) ?_
        · show c.lo ≤ n.lo
          omega
        · show c.lo < n.hi
          omega
        · intro e he
          rcases List.mem_cons.mp he with rfl | he
          · exact hfl' n (by simp)
          · exact hfl' e (List.mem_cons_of_mem n he)
      | dedupe hsane hempty => omega
    · exact .inr ⟨_, heq, hrs.shape hacc hneacc hs⟩

/-- On a tidy list of one kind the walk changes nothing. -/
theorem fldFixPass_of_tidy {F : UInt32} {acc : List FldCacheEntry} {c : FldCacheEntry} {rest : List FldCacheEntry}
    (h : Tidy (c :: rest)) (hfl : AllFlags F (c :: rest)) : fldFixPass acc c rest = .done (acc ++ c :: rest) := by
  induction rest generalizing acc c with
  | nil => exact fldFixPass_nil acc c (Nat.le_of_lt (h.2 c (by simp)))
  | cons n rest ih =>
    have hc : c.lo < c.hi := h.2 c (by simp)
    have hap : Apart c n := List.rel_of_pairwise_cons h.1 (by simp)
    have hcn := hap.before
    unfold Before at hcn
    have htail : Tidy (n :: rest) := ⟨h.1.of_cons, fun e he => h.2 e (List.mem_cons_of_mem c he)⟩
    rcases fldFixPass_cons acc c n rest with ⟨-, hbug⟩ | ⟨k, c', hmove, heq⟩ | ⟨m, hrs, heq⟩
    · rcases hbug with hbug | ⟨-, hbug⟩ <;> omega
    · rw [heq]
      cases hmove with
      | keep =>
        rw [ih htail (fun e he => hfl e (List.mem_cons_of_mem c he))]
        simp
      | merge hsane hadj hidx =>
        -- apart entries that adjoin have other indexes
        rcases hap with hlt | ⟨-, hne⟩
        · omega
        · exact absurd hidx hne
      | dedupe hsane hempty => omega
    · -- apart entries do not overlap
      have hov : n.lo < c.hi := by cases hrs <;> assumption
      omega

/-! ## `fld_fix_new_list` -/

theorem fldFixPassList_walk {F : UInt32} {l : List FldCacheEntry} (hs : FixShape l) (hfl : AllFlags F l) :
    (∃ l', fldFixPassList l = .done l' ∧ Tidy l') ∨ (∃ l', fldFixPassList l = .restart l' ∧ FixShape l') := by
  cases l with
  | nil => exact .inl ⟨[], rfl, List.Pairwise.nil, fun e he => by cases he⟩
  | cons c rest =>
    exact @fldFixPass_walk F [] c rest (List.pairwise_singleton _ _) (fun e he => by cases he) hs hfl

theorem fldFixPassList_cover {l l' : List FldCacheEntry} (hne : AllNonempty l)
    (h : fldFixPassList l = .done l' ∨ fldFixPassList l = .restart l') (seq : UInt64) :
    coverOf l' seq = coverOf l seq := by
  cases l with
  | nil =>
    rcases h with h | h <;> cases h
    rfl
  | cons c rest => simpa using fldFixPass_cover hne h seq

theorem fldFixPassList_drawn {l l' : List FldCacheEntry}
    (h : fldFixPassList l = .done l' ∨ fldFixPassList l = .restart l') : Drawn l l' := by
  cases l with
  | nil =>
    rcases h with h | h <;> cases h
    exact Drawn.refl []
  | cons c rest => simpa using fldFixPass_drawn h

theorem fldFixPassList_restart {l l' : List FldCacheEntry} (h : fldFixPassList l = .restart l') :
    fixMeasure l' < fixMeasure l := by
  cases l with
  | nil => cases h
  | cons c rest => simpa using fldFixPass_measure h

/-- With enough walks, on a list of one kind with one entry out of place,
the loop returns a tidy list of that kind, drawn from the list, that gives
every sequence the location the list gave it. -/
theorem fldFixNewListFuel_spec {F : UInt32} {fuel : Nat} {l : List FldCacheEntry} (hs : FixShape l)
    (hfl : AllFlags F l) (hfuel : fixMeasure l < fuel) :
    ∃ l', fldFixNewListFuel fuel l = .ok l' ∧ Tidy l' ∧ Drawn l l' ∧ ∀ seq, coverOf l' seq = coverOf l seq := by
  induction fuel generalizing l with
  | zero => omega
  | succ fuel ih =>
    rw [fldFixNewListFuel]
    rcases fldFixPassList_walk hs hfl with ⟨l', hl', htidy⟩ | ⟨l', hl', hs'⟩
    · rw [hl']
      exact ⟨l', rfl, htidy, fldFixPassList_drawn (.inl hl'), fldFixPassList_cover hs.1 (.inl hl')⟩
    · -- the walk restarted on a smaller list of the same shape
      rw [hl']
      have hdr := fldFixPassList_drawn (.inr hl')
      have hlt := fldFixPassList_restart hl'
      obtain ⟨l'', hrun, htidy, hdr', hcov⟩ := ih hs' (hdr.allFlags hfl) (by omega)
      exact ⟨l'', hrun, htidy, hdr.trans hdr', fun seq => (hcov seq).trans (fldFixPassList_cover hs.1 (.inr hl') seq)⟩

/-- `fld_fix_new_list(cache)` on entries of one kind with one entry out of
place: the cache keeps a tidy list, and the LRU list the nodes still in
it. -/
theorem fldFixNewList_spec {F : UInt32} {cache : FldCache} (hs : FixShape cache.fciEntries)
    (hfl : AllFlags F cache.fciEntries) :
    ∃ l, fldFixNewList cache =
        some { cache with fciEntries := l, fciLru := cache.fciLru.filter fun id => l.any (·.fceId = id) } ∧
      Tidy l ∧ Drawn cache.fciEntries l ∧ ∀ seq, coverOf l seq = coverOf cache.fciEntries seq := by
  obtain ⟨l, hrun, htidy, hdr, hcov⟩ :=
    @fldFixNewListFuel_spec F (fixupFuel cache.fciEntries) cache.fciEntries hs hfl (by simp [fixupFuel, fixMeasure])
  refine ⟨l, ?_, htidy, hdr, hcov⟩
  rw [fldFixNewList, hrun]

/-- On a tidy list of one kind, `fld_fix_new_list` only prunes the LRU
list. -/
theorem fldFixNewList_of_tidy {F : UInt32} {cache : FldCache} (h : Tidy cache.fciEntries)
    (hfl : AllFlags F cache.fciEntries) :
    fldFixNewList cache =
      some { cache with fciLru := cache.fciLru.filter fun id => cache.fciEntries.any (·.fceId = id) } := by
  have hpass : fldFixPassList cache.fciEntries = .done cache.fciEntries := by
    cases hl : cache.fciEntries with
    | nil => rfl
    | cons c rest =>
      rw [hl] at h hfl
      exact @fldFixPass_of_tidy F [] c rest h hfl
  rw [fldFixNewList, fixupFuel, fldFixNewListFuel, hpass]

end Lustre.Fld
