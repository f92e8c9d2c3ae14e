import Mathlib
import Lustre.Lib.Run
import Lustre.Lmv

/-! # Which stripe a name is on

What `__lmv_name_to_stripe_index` returns, for every name and every layout:

* `lmv_hash_crush` strips a temporary or backup suffix the recognisers
  find, and hashes what is left (`lmvHashCrush_eq`);
* for an LMV that `lmv_is_sane2` accepts, the words are those of the LMV in
  little-endian order (`lmvNameToStripeIndex_of_magic`,
  `lmvNameToStripeIndexOld_of_magic`);
* `lmv_is_sane2` does not look at the migrate offset, and an offset that
  leaves no stripe to place by trips an `LASSERT`
  (`lmvNameToStripeIndexCore_of_count_zero`);
* a temporary or backup name that its own recogniser takes is placed with
  its target (`lmv_hash_crush_colocates_derived`); `a.~` and `.a.b.orig`
  are not, by the guard on a `.` before `~` and by the fixed order of the
  recognisers (`lmv_hash_crush_misplaces_derived`).
-/

namespace Lustre.Lmv

open ByteCodec CArith CFormat

/-! ## The hashes stay below their count -/

/-- The stripe loop of `lmv_hash_crush` keeps `idx` below the count: it
starts at 0 and only takes indices of the loop. The step is rewritten by an
equation, not unfolded in place: the kernel would otherwise compare it under
the `<` of `UInt32` and unfold `crush_hash`. -/
theorem crushSelect_lt (pgId : UInt32) {count : UInt32} (h : 0 < count) : crushSelect pgId count < count := by
  unfold crushSelect
  apply StepRun.foldl_inv (fun st : UInt64 × UInt32 => st.2 < count) _ _ _ h
  intro st i hi hst
  have hstep : (let straw := (crushHash pgId (UInt32.ofNat i)).toUInt64
      if straw > st.1 then (straw, UInt32.ofNat i) else st) =
      if (crushHash pgId (UInt32.ofNat i)).toUInt64 > st.1 then
        ((crushHash pgId (UInt32.ofNat i)).toUInt64, UInt32.ofNat i) else st := rfl
  rw [hstep, apply_ite Prod.snd]
  split
  · -- a higher straw: `idx = i`, an index of the loop
    have hi' : i < count.toNat := List.mem_range.mp hi
    rw [UInt32.lt_iff_toNat_lt, UInt32.toNat_ofNat_of_lt' (Nat.lt_trans hi' count.toNat_lt)]
    exact hi'
  · exact hst

/-- `lu_name_is_backup_file` strips less than the whole name. -/
theorem luNameIsBackupFile_lt {name : List UInt8} {i : Nat} (h : luNameIsBackupFile name = some i) :
    i < name.length := by
  unfold luNameIsBackupFile at h
  dsimp only at h
  split_ifs at h with h1 h2 h3
  · simp only [Bool.and_eq_true, decide_eq_true_eq] at h1
    cases h
    omega
  · simp only [Bool.and_eq_true, decide_eq_true_eq] at h2
    cases h
    omega
  · simp only [Bool.and_eq_true, decide_eq_true_eq] at h3
    cases h
    omega

/-- `LASSERT(i < namelen)` holds: `lmv_hash_crush` always has a name to hash. -/
theorem crushName_isSome (name : List UInt8) : ∃ stem, crushName name = some stem := by
  unfold crushName
  split_ifs
  · exact ⟨_, rfl⟩
  · exact ⟨_, rfl⟩
  · rcases hb : luNameIsBackupFile name with _ | i
    · exact ⟨_, rfl⟩
    · dsimp only
      exact ⟨_, by rw [if_pos (luNameIsBackupFile_lt hb)]⟩

/-- `lmv_hash_crush` places a name by its stem alone, and on a stripe of the
count. -/
theorem lmvHashCrush_eq {count : UInt32} (h : 0 < count) (name : List UInt8) :
    lmvHashCrush count name = (crushName name).map fun stem => crushSelect (lmvHashFnv1a lmvCrushPgCount stem) count := by
  obtain ⟨stem, hstem⟩ := crushName_isSome name
  rw [lmvHashCrush, hstem, Option.map_some]
  show (if crushSelect (lmvHashFnv1a lmvCrushPgCount stem) count < count then some _ else none) = _
  rw [if_pos (crushSelect_lt _ h)]

/-! ## The layout a name is placed by -/

/-- A split and a merge are not migrations, nor a merge a split: the tests
read different values of the flags. -/
theorem lmvHashIsMigrating_of_splitting {hash : UInt32} (h : lmvHashIsSplitting hash = true) :
    lmvHashIsMigrating hash = false := by
  unfold lmvHashIsSplitting at h
  unfold lmvHashIsMigrating
  rw [beq_iff_eq] at h
  rw [h]
  decide

theorem lmvHashIsMigrating_of_merging {hash : UInt32} (h : lmvHashIsMerging hash = true) :
    lmvHashIsMigrating hash = false := by
  unfold lmvHashIsMerging at h
  unfold lmvHashIsMigrating
  rw [beq_iff_eq] at h
  rw [h]
  decide

theorem lmvHashIsSplitting_of_merging {hash : UInt32} (h : lmvHashIsMerging hash = true) :
    lmvHashIsSplitting hash = false := by
  unfold lmvHashIsMerging at h
  unfold lmvHashIsSplitting
  rw [beq_iff_eq] at h
  rw [h]
  decide

section Placement

variable {hashType stripeCount migrateHash migrateOffset : UInt32} {newLayout : Bool}

theorem placementLayout_of_splitting (h : lmvHashIsSplitting hashType = true) :
    placementLayout hashType stripeCount migrateHash migrateOffset newLayout =
      if !newLayout then (migrateHash, migrateOffset) else (hashType, stripeCount) := by
  rw [placementLayout, if_pos h]

theorem placementLayout_of_merging (h : lmvHashIsMerging hashType = true) :
    placementLayout hashType stripeCount migrateHash migrateOffset newLayout =
      if newLayout then (migrateHash, migrateOffset) else (hashType, stripeCount) := by
  rw [placementLayout, if_neg (by rw [lmvHashIsSplitting_of_merging h]; decide), if_pos h]

theorem placementLayout_of_migrating (h : lmvHashIsMigrating hashType = true) :
    placementLayout hashType stripeCount migrateHash migrateOffset newLayout =
      if newLayout then (hashType, migrateOffset) else (migrateHash, stripeCount - migrateOffset) := by
  have hsp : lmvHashIsSplitting hashType ≠ true := fun hsp => by
    rw [lmvHashIsMigrating_of_splitting hsp] at h
    exact absurd h (by decide)
  have hme : lmvHashIsMerging hashType ≠ true := fun hme => by
    rw [lmvHashIsMigrating_of_merging hme] at h
    exact absurd h (by decide)
  rw [placementLayout, if_neg hsp, if_neg hme, if_pos h]

end Placement

/-! ## `__lmv_name_to_stripe_index` -/

/-- A layout with no stripe to place by trips `LASSERT(stripe_index <
stripe_count)`. -/
theorem lmvNameToStripeIndexCore_of_count_zero {hashType stripeCount migrateHash migrateOffset : UInt32}
    {name : List UInt8} {newLayout : Bool} (hname : name ≠ []) (hs : stripeCount ≠ 0)
    (h0 : (placementLayout hashType stripeCount migrateHash migrateOffset newLayout).2 = 0) :
    lmvNameToStripeIndexCore hashType stripeCount migrateHash migrateOffset name newLayout = none := by
  unfold lmvNameToStripeIndexCore
  rw [if_neg (fun h => hname (List.eq_nil_of_length_eq_zero h)), if_neg hs]
  generalize placementLayout hashType stripeCount migrateHash migrateOffset newLayout = L at h0
  obtain ⟨hashType', count⟩ := L
  dsimp only at h0 ⊢
  subst h0
  rfl

/-! ## Reading the LMV -/

@[simp]
theorem le32ToCpu_false (x : UInt32) : le32ToCpu false x = x := rfl

theorem le32ToCpu_le32ToCpu (bigEndian : Bool) (x : UInt32) : le32ToCpu bigEndian (le32ToCpu bigEndian x) = x := by
  cases bigEndian
  · rfl
  · exact swab32_swab32 x

/-- An LMV whose little-endian magic is `LMV_MAGIC_V1` is read in
little-endian order by `lmv_name_to_stripe_index`, on either host. -/
theorem lmvNameToStripeIndex_of_magic {bigEndian : Bool} {lmv : LmvMdsMdV1} (name : List UInt8)
    (h : le32ToCpu bigEndian lmv.lmvMagic = lmvMagicV1) :
    lmvNameToStripeIndex bigEndian lmv name = lmvIndexBy (le32ToCpu bigEndian) lmv name true := by
  cases bigEndian with
  | false =>
    rw [le32ToCpu_false] at h
    rw [lmvNameToStripeIndex, if_pos h]
    rfl
  | true =>
    -- the stored magic is the swapped one, not the host's
    have hm : lmv.lmvMagic = le32ToCpu true lmvMagicV1 := by
      rw [← h, le32ToCpu_le32ToCpu]
    have hne : lmv.lmvMagic ≠ lmvMagicV1 := by
      rw [hm]
      decide
    rw [lmvNameToStripeIndex, if_neg hne, if_pos hm]

/-- The same for `lmv_name_to_stripe_index_old`, for a master or a stripe
LMV. -/
theorem lmvNameToStripeIndexOld_of_magic {bigEndian : Bool} {lmv : LmvMdsMdV1} (name : List UInt8)
    (h : le32ToCpu bigEndian lmv.lmvMagic = lmvMagicV1 ∨ le32ToCpu bigEndian lmv.lmvMagic = lmvMagicStripe) :
    lmvNameToStripeIndexOld bigEndian lmv name = lmvIndexBy (le32ToCpu bigEndian) lmv name false := by
  cases bigEndian with
  | false =>
    simp only [le32ToCpu_false] at h
    have hc : (lmv.lmvMagic = lmvMagicV1 || lmv.lmvMagic = lmvMagicStripe) = true := by
      rcases h with h | h <;> simp [h]
    rw [lmvNameToStripeIndexOld, if_pos hc]
    rfl
  | true =>
    have hm : lmv.lmvMagic = le32ToCpu true lmvMagicV1 ∨ lmv.lmvMagic = le32ToCpu true lmvMagicStripe := by
      rcases h with h | h
      · exact .inl (by rw [← h, le32ToCpu_le32ToCpu])
      · exact .inr (by rw [← h, le32ToCpu_le32ToCpu])
    have hne : (lmv.lmvMagic = lmvMagicV1 || lmv.lmvMagic = lmvMagicStripe) = false := by
      rcases hm with hm | hm <;> rw [hm] <;> decide
    have hc : (lmv.lmvMagic = le32ToCpu true lmvMagicV1 || lmv.lmvMagic = le32ToCpu true lmvMagicStripe) = true := by
      rcases hm with hm | hm <;> simp [hm]
    rw [lmvNameToStripeIndexOld, if_neg (by rw [hne]; decide), if_pos hc]

/-- What `lmv_is_sane2` checks, on the words in little-endian order. -/
theorem lmvIsSane2_iff {bigEndian : Bool} {lmv : LmvMdsMdV1} :
    lmvIsSane2 bigEndian lmv = true ↔
      (le32ToCpu bigEndian lmv.lmvMagic = lmvMagicV1 ∨ le32ToCpu bigEndian lmv.lmvMagic = lmvMagicStripe) ∧
        le32ToCpu bigEndian lmv.lmvStripeCount ≠ 0 ∧ lmvIsKnownHashType (le32ToCpu bigEndian lmv.lmvHashType) = true := by
  simp [lmvIsSane2, and_assoc]

/-- `lmv_is_sane2` accepts a layout change whose migrate offset leaves no
stripe to place by: for the new layout a migration or a merge with offset 0,
for the old one a split with offset 0 or a migration with offset equal to
the stripe count. The name is then placed by an empty layout and
`LASSERT(stripe_index < stripe_count)` fails. -/
theorem lmv_name_to_stripe_index_trips_lassert (bigEndian : Bool) (lmv : LmvMdsMdV1) (name : List UInt8)
    (hsane : lmvIsSane2 bigEndian lmv = true) (hname : name ≠ []) :
    (le32ToCpu bigEndian lmv.lmvMagic = lmvMagicV1 →
      (lmvHashIsMigrating (le32ToCpu bigEndian lmv.lmvHashType) = true ∨
        lmvHashIsMerging (le32ToCpu bigEndian lmv.lmvHashType) = true) →
      le32ToCpu bigEndian lmv.lmvMigrateOffset = 0 → lmvNameToStripeIndex bigEndian lmv name = none) ∧
    ((lmvHashIsSplitting (le32ToCpu bigEndian lmv.lmvHashType) = true ∧
          le32ToCpu bigEndian lmv.lmvMigrateOffset = 0 ∨
        lmvHashIsMigrating (le32ToCpu bigEndian lmv.lmvHashType) = true ∧
          le32ToCpu bigEndian lmv.lmvMigrateOffset = le32ToCpu bigEndian lmv.lmvStripeCount) →
      lmvNameToStripeIndexOld bigEndian lmv name = none) := by
  obtain ⟨hmagic, hs, -⟩ := lmvIsSane2_iff.mp hsane
  refine ⟨fun hv1 hflag h0 => ?_, fun hflag => ?_⟩
  · rw [lmvNameToStripeIndex_of_magic name hv1]
    apply lmvNameToStripeIndexCore_of_count_zero hname hs
    rcases hflag with hmig | hme
    · rw [placementLayout_of_migrating hmig, if_pos rfl, h0]
    · rw [placementLayout_of_merging hme, if_pos rfl, h0]
  · rw [lmvNameToStripeIndexOld_of_magic name hmagic]
    apply lmvNameToStripeIndexCore_of_count_zero hname hs
    rcases hflag with ⟨hsp, h0⟩ | ⟨hmig, hcount⟩
    · rw [placementLayout_of_splitting hsp, if_pos (by decide), h0]
    · rw [placementLayout_of_migrating hmig, if_neg (by decide), hcount, UInt32.sub_self]

theorem lmv_name_to_stripe_index_trips_lassert_migrating :
    lmvIsSane2 false ⟨lmvMagicV1, 2, 0x80000002, 0, 2⟩ = true ∧
      lmvNameToStripeIndex false ⟨lmvMagicV1, 2, 0x80000002, 0, 2⟩ ['a'.toUInt8] = none :=
  ⟨by decide, (lmv_name_to_stripe_index_trips_lassert false _ _ (by decide) (by simp)).1 rfl
    (.inl (by decide)) rfl⟩

/-! ## Temporary and backup names placed with their target -/

/-- A name none of the three recognisers of `lmv_hash_crush` takes: it is
hashed whole. -/
def IsTarget (t : List UInt8) : Prop :=
  luNameIsTempFile t true 6 = false ∧ luNameIsTempFile t false 8 = false ∧ luNameIsBackupFile t = none

instance (t : List UInt8) : Decidable (IsTarget t) :=
  inferInstanceAs (Decidable (_ ∧ _ ∧ _))

theorem crushName_of_isTarget {t : List UInt8} (ht : IsTarget t) : crushName t = some t := by
  obtain ⟨h1, h2, h3⟩ := ht
  rw [crushName, if_neg (by rw [h1]; decide), if_neg (by rw [h2]; decide), h3]

/-- A name whose stem is a target is on the target's stripe. -/
theorem lmvHashCrush_of_stem {count : UInt32} (hc : 0 < count) {d t : List UInt8} (ht : IsTarget t)
    (hd : crushName d = some t) : lmvHashCrush count d = lmvHashCrush count t := by
  rw [lmvHashCrush_eq hc, lmvHashCrush_eq hc, hd, crushName_of_isTarget ht]

/-- An rsync temporary `.<t>.XXXXXX` that `lu_name_is_temp_file` takes has
the stem `t`: the first test is its own. -/
theorem crushName_rsync {t sfx : List UInt8} (hlen : sfx.length = 6)
    (hacc : luNameIsTempFile ('.'.toUInt8 :: (t ++ '.'.toUInt8 :: sfx)) true 6 = true) :
    crushName ('.'.toUInt8 :: (t ++ '.'.toUInt8 :: sfx)) = some t := by
  have hcut : ('.'.toUInt8 :: (t ++ '.'.toUInt8 :: sfx)).length - 8 = t.length := by
    simp [hlen]
  rw [crushName, if_pos hacc, hcut, List.drop_one, List.tail_cons, List.take_left]

/-- A `dstripe` temporary `<t>.XXXXXXXX` has the stem `t` when it is not
taken for an rsync one first. -/
theorem crushName_dstripe {t sfx : List UInt8} (hlen : sfx.length = 8)
    (hrs : luNameIsTempFile (t ++ '.'.toUInt8 :: sfx) true 6 = false)
    (hacc : luNameIsTempFile (t ++ '.'.toUInt8 :: sfx) false 8 = true) :
    crushName (t ++ '.'.toUInt8 :: sfx) = some t := by
  have hcut : (t ++ '.'.toUInt8 :: sfx).length - 9 = t.length := by
    simp [hlen]
  rw [crushName, if_neg (by rw [hrs]; decide), if_pos hacc, hcut, List.take_left]

/-- The backup suffixes `lu_name_is_backup_file` strips. -/
def backupSuffixes : List (List UInt8) :=
  [['~'.toUInt8], '.'.toUInt8 :: bakSuffix, '.'.toUInt8 :: savSuffix, '.'.toUInt8 :: origSuffix]

/-- `lu_name_is_backup_file` takes `<t>~`, `<t>.bak`, `<t>.sav` and
`<t>.orig` for a nonempty `t`, and strips the suffix; a `~` only after a
last character other than `.`. -/
theorem luNameIsBackupFile_append {t s : List UInt8} (hs : s ∈ backupSuffixes) (ht : t ≠ [])
    (hdot : s = ['~'.toUInt8] → t.getLast ht ≠ '.'.toUInt8) :
    luNameIsBackupFile (t ++ s) = some s.length := by
  have hpos : 0 < t.length := List.length_pos_of_ne_nil ht
  have hlast : t.getD (t.length - 1) 0 = t.getLast ht := by
    rw [List.getLast_eq_getElem, List.getD_eq_getElem?_getD, List.getElem?_eq_getElem (by omega),
      Option.getD_some]
  simp only [backupSuffixes, List.mem_cons, List.not_mem_nil, or_false] at hs
  rcases hs with rfl | rfl | rfl | rfl
  · -- `~`: the character before it is the last of `t`
    have hprev : (t ++ ['~'.toUInt8]).getD (t.length + 1 - 2) 0 = t.getLast ht := by
      rw [show t.length + 1 - 2 = t.length - 1 by omega, List.getD_append _ _ _ _ (by omega), hlast]
    simp only [luNameIsBackupFile, List.length_append, List.length_singleton, hprev]
    have hne := hdot rfl
    simp [hne, hpos]
  all_goals
    simp +decide [luNameIsBackupFile, bakSuffix, savSuffix, origSuffix, hpos,
      show t.length + 4 - 1 = t.length + 3 by omega, show t.length + 4 - 2 = t.length + 2 by omega,
      show t.length + 4 - 3 = t.length + 1 by omega, show t.length + 5 - 1 = t.length + 4 by omega,
      show t.length + 5 - 2 = t.length + 3 by omega, show t.length + 5 - 3 = t.length + 2 by omega,
      show t.length + 5 - 4 = t.length + 1 by omega, strncasecmpEq, toLower, isUpper]

/-- A backup `<t>~`, `<t>.bak`, `<t>.sav` or `<t>.orig` has the stem `t` when
neither test for a temporary takes it first. -/
theorem crushName_backup {t s : List UInt8} (hs : s ∈ backupSuffixes) (ht : t ≠ [])
    (hdot : s = ['~'.toUInt8] → t.getLast ht ≠ '.'.toUInt8)
    (hrs : luNameIsTempFile (t ++ s) true 6 = false) (hds : luNameIsTempFile (t ++ s) false 8 = false) :
    crushName (t ++ s) = some t := by
  have hpos : 0 < t.length := List.length_pos_of_ne_nil ht
  rw [crushName, if_neg (by rw [hrs]; decide), if_neg (by rw [hds]; decide),
    luNameIsBackupFile_append hs ht hdot]
  dsimp only
  rw [if_pos (by rw [List.length_append]; omega), List.length_append, Nat.add_sub_cancel, List.take_left]

/-- The names `lmv_hash_crush` strips back to the target `t`, each on the
stripe of `t`: an rsync temporary `.<t>.XXXXXX` that `lu_name_is_temp_file`
takes; a `dstripe` temporary `<t>.XXXXXXXX` that it takes and the rsync test
does not; a backup `<t>~` (for a `t` not ending in `.`), `<t>.bak`,
`<t>.sav` or `<t>.orig` that neither test for a temporary takes. -/
def ColocatesDerived (count : UInt32) (t : List UInt8) : Prop :=
  (∀ sfx : List UInt8, sfx.length = 6 →
      luNameIsTempFile ('.'.toUInt8 :: (t ++ '.'.toUInt8 :: sfx)) true 6 = true →
      lmvHashCrush count ('.'.toUInt8 :: (t ++ '.'.toUInt8 :: sfx)) = lmvHashCrush count t) ∧
    (∀ sfx : List UInt8, sfx.length = 8 → luNameIsTempFile (t ++ '.'.toUInt8 :: sfx) true 6 = false →
      luNameIsTempFile (t ++ '.'.toUInt8 :: sfx) false 8 = true →
      lmvHashCrush count (t ++ '.'.toUInt8 :: sfx) = lmvHashCrush count t) ∧
    ∀ s ∈ backupSuffixes, ∀ hne : t ≠ [], (s = ['~'.toUInt8] → t.getLast hne ≠ '.'.toUInt8) →
      luNameIsTempFile (t ++ s) true 6 = false → luNameIsTempFile (t ++ s) false 8 = false →
      lmvHashCrush count (t ++ s) = lmvHashCrush count t

/-- For a stripe count above zero and a target, every name of the three
patterns that reaches its own recogniser is placed with the target: the
recogniser strips it back to the target, which is hashed whole. -/
theorem lmv_hash_crush_colocates_derived {count : UInt32} (hc : 0 < count) {t : List UInt8} (ht : IsTarget t) :
    ColocatesDerived count t := by
  refine ⟨fun _ hlen hacc => ?_, fun _ hlen hrs hacc => ?_, fun _ hs hne hdot hrs hds => ?_⟩
  · exact lmvHashCrush_of_stem hc ht (crushName_rsync hlen hacc)
  · exact lmvHashCrush_of_stem hc ht (crushName_dstripe hlen hrs hacc)
  · exact lmvHashCrush_of_stem hc ht (crushName_backup hs hne hdot hrs hds)

/-- Four stripes and the target `abc`. -/
theorem lmv_hash_crush_colocates_derived_abc :
    (0 : UInt32) < 4 ∧ IsTarget ['a'.toUInt8, 'b'.toUInt8, 'c'.toUInt8] ∧
      ColocatesDerived 4 ['a'.toUInt8, 'b'.toUInt8, 'c'.toUInt8] :=
  ⟨by decide, by decide, lmv_hash_crush_colocates_derived (by decide) (by decide)⟩

/-- Two targets whose derived names `lmv_hash_crush` puts on other stripes of
four: `a.~` is no backup to `lu_name_is_backup_file`, which wants a
character other than `.` before the `~`, and `.a.b.orig` passes for an rsync
temporary of `a` with the suffix `b.orig`. -/
theorem lmv_hash_crush_misplaces_derived :
    IsTarget ['a'.toUInt8, '.'.toUInt8] ∧
      crushName (['a'.toUInt8, '.'.toUInt8] ++ ['~'.toUInt8]) = some ['a'.toUInt8, '.'.toUInt8, '~'.toUInt8] ∧
      lmvHashCrush 4 ['a'.toUInt8, '.'.toUInt8] = some 3 ∧
      lmvHashCrush 4 (['a'.toUInt8, '.'.toUInt8] ++ ['~'.toUInt8]) = some 0 ∧
    IsTarget ['.'.toUInt8, 'a'.toUInt8, '.'.toUInt8, 'b'.toUInt8] ∧
      crushName (['.'.toUInt8, 'a'.toUInt8, '.'.toUInt8, 'b'.toUInt8] ++ '.'.toUInt8 :: origSuffix) =
        some ['a'.toUInt8] ∧
      lmvHashCrush 4 ['.'.toUInt8, 'a'.toUInt8, '.'.toUInt8, 'b'.toUInt8] = some 3 ∧
      lmvHashCrush 4 (['.'.toUInt8, 'a'.toUInt8, '.'.toUInt8, 'b'.toUInt8] ++ '.'.toUInt8 :: origSuffix) =
        some 2 := by
  refine ⟨?_, ?_, ?_, ?_, ?_, ?_, ?_, ?_⟩ <;> decide +kernel

end Lustre.Lmv
