import Mathlib
import Lustre.Lnet.MatchMd

/-! # Where an incoming message lands in its MD

For an MD whose offsets it manages itself — without `LNET_MD_MANAGE_REMOTE`
— `lnet_md_build` leaves the offset at 0, and `md_max_size`, when used, within
the length (`lnetMdBuild_inv`). Every header that `lnet_try_match_md` then
attaches lands inside the MD, for no more than the payload, and the MD's
offset stays within its length (`lnetTryMatchMd_spec`), along any sequence of
headers (`lnet_match_run_within`); the fragments `lnet_extract_kiov` cuts out
for it exist, so none of its assertions fires (`lnetExtractKiov_some`).

With `LNET_MD_MANAGE_REMOTE` the offset is the one the peer sent, and
nothing compares it with the MD's length: `md_length - offset` wraps, the
message is attached beyond the MD, and `lnet_extract_kiov` runs off the
fragments (`lnet_try_match_md_remote_offset_outside`).
-/

namespace Lustre.Lnet

/-- What an MD that manages its own offsets keeps: the offset within the
length, `md_max_size` within it and the length below `2^31` when used, and a
threshold that is infinite or not negative. -/
structure MdInv (md : LnetLibmd) : Prop where
  local_offset : md.mdOptions &&& lnetMdManageRemote = 0
  offset_le : md.mdOffset.toNat ≤ md.mdLength.toNat
  max_size : md.mdOptions &&& lnetMdMaxSize ≠ 0 → md.mdMaxSize.toNat ≤ md.mdLength.toNat ∧ md.mdLength.toNat < 2 ^ 31
  threshold : md.mdThreshold = lnetMdThreshInf ∨ 0 ≤ md.mdThreshold

/-- The fragments of an MD cover its length, each within its page. -/
structure FragsOk (md : LnetLibmd) : Prop where
  sum_eq : (md.mdKiov.map (·.bvLen.toNat)).sum = md.mdLength.toNat
  in_page : ∀ v ∈ md.mdKiov, v.bvOffset.toNat + v.bvLen.toNat ≤ pageSize

theorem toNat_pageSize : (UInt32.ofNat pageSize).toNat = pageSize := rfl

/-! ## Matching -/

section Match

variable {md : LnetLibmd}

/-- An MD that is not exhausted has operations left and, with
`md_max_size`, room for it. -/
theorem MdInv.of_not_exhausted (h : MdInv md) (hx : lnetMdExhausted md = false) :
    md.mdThreshold ≠ 0 ∧
      (md.mdOptions &&& lnetMdMaxSize ≠ 0 → md.mdOffset.toNat + md.mdMaxSize.toNat ≤ md.mdLength.toNat) := by
  simp only [lnetMdExhausted, Bool.or_eq_false_iff, beq_eq_false_iff_ne, Bool.and_eq_false_iff, bne_eq_false_iff_eq,
    decide_eq_false_iff_not, UInt32.not_lt] at hx
  refine ⟨hx.1, fun hmax => ?_⟩
  obtain ⟨hle, hlen⟩ := h.max_size hmax
  rcases hx.2 with hzero | hroom
  · exact absurd hzero hmax
  · have hsum := CArith.toNat_add_of_lt (a := md.mdOffset) (b := md.mdMaxSize) (by have := h.offset_le; omega)
    rw [UInt32.le_iff_toNat_le, hsum] at hroom
    exact hroom

/-- Attaching a message uses up one operation of a finite threshold. -/
theorem lnetMsgAttachMd_spec (h : md.mdThreshold = lnetMdThreshInf ∨ 0 ≤ md.mdThreshold) (hne : md.mdThreshold ≠ 0) :
    ∃ t, lnetMsgAttachMd md = some { md with mdThreshold := t } ∧ (t = lnetMdThreshInf ∨ 0 ≤ t) := by
  unfold lnetMsgAttachMd
  by_cases hinf : md.mdThreshold = lnetMdThreshInf
  · rw [if_neg (fun h' => h' hinf)]
    exact ⟨md.mdThreshold, rfl, Or.inl hinf⟩
  · have hpos : md.mdThreshold > 0 := by
      rcases h with h | h
      · exact absurd h hinf
      · omega
    rw [if_pos hinf, if_pos hpos]
    exact ⟨md.mdThreshold - 1, rfl, Or.inr (by omega)⟩

/-- `lnet_md_unlink` only flags the MD. -/
theorem lnetMdUnlink_eq (md : LnetLibmd) : ∃ f, lnetMdUnlink md = { md with mdFlags := f } := by
  unfold lnetMdUnlink
  split_ifs
  · exact ⟨_, rfl⟩
  · exact ⟨md.mdFlags, rfl⟩

/-- What a step leaves of an MD: its invariant, its length, fragments and
options, and an attachment at its own offset, for no more than the payload,
inside the MD. -/
def MatchPost (md : LnetLibmd) (rlength : UInt32) (r : UInt32 × Option (UInt32 × UInt32) × LnetLibmd) : Prop :=
  MdInv r.2.2 ∧ r.2.2.mdLength = md.mdLength ∧ r.2.2.mdKiov = md.mdKiov ∧
    ∀ off mlen, r.2.1 = some (off, mlen) →
      off = md.mdOffset ∧ mlen ≤ rlength ∧ off.toNat + mlen.toNat ≤ md.mdLength.toNat

theorem MatchPost.unmatched (h : MdInv md) (rlength rc : UInt32) : MatchPost md rlength (rc, none, md) :=
  ⟨h, rfl, rfl, fun _ _ hatt => by cases hatt⟩

/-- Committing to `mlength` bytes at the MD's own offset, when they fit. -/
theorem lnetCommitMd_spec (h : MdInv md) (hne : md.mdThreshold ≠ 0) {mlength rlength : UInt32}
    (hle : mlength ≤ rlength) (hfit : md.mdOffset.toNat + mlength.toNat ≤ md.mdLength.toNat) :
    ∃ r, lnetCommitMd md md.mdOffset mlength = some r ∧ MatchPost md rlength r := by
  obtain ⟨t, hatt, ht⟩ := lnetMsgAttachMd_spec h.threshold hne
  have hsum : (md.mdOffset + mlength).toNat = md.mdOffset.toNat + mlength.toNat :=
    CArith.toNat_add_of_lt (by have := md.mdLength.toNat_lt; omega)
  -- the MD after the attachment, before any unlink
  have hinv : MdInv { md with mdThreshold := t, mdOffset := md.mdOffset + mlength } :=
    ⟨h.local_offset, by dsimp only; omega, h.max_size, ht⟩
  have hpost : ∀ f : UInt32, ∀ rc,
      MatchPost md rlength (rc, some (md.mdOffset, mlength),
        { md with mdThreshold := t, mdOffset := md.mdOffset + mlength, mdFlags := f }) :=
    fun f rc => ⟨⟨hinv.local_offset, hinv.offset_le, hinv.max_size, hinv.threshold⟩, rfl, rfl,
      fun off mlen hsome => by
        cases hsome
        exact ⟨rfl, hle, hfit⟩⟩
  rw [lnetCommitMd, hatt, Option.map_some]
  dsimp only
  split_ifs
  · exact ⟨_, rfl, hpost md.mdFlags _⟩
  · obtain ⟨f, hf⟩ := lnetMdUnlink_eq { md with mdThreshold := t, mdOffset := md.mdOffset + mlength }
    rw [hf]
    exact ⟨_, rfl, hpost f _⟩
  · exact ⟨_, rfl, hpost md.mdFlags _⟩

/-- `lnet_try_match_md` on an MD that manages its own offsets returns, and
whatever it attaches lands inside the MD. -/
theorem lnetTryMatchMd_spec (h : MdInv md) (me : LnetMe) (info : LnetMatchInfo) :
    ∃ r, lnetTryMatchMd md me info = some r ∧ MatchPost md info.miRlength r := by
  unfold lnetTryMatchMd
  -- the five ways of not matching leave the MD as it is
  by_cases hx : lnetMdExhausted md = true
  · rw [if_pos hx]
    exact ⟨_, rfl, MatchPost.unmatched h _ _⟩
  rw [if_neg hx]
  by_cases hop : md.mdOptions &&& info.miOpc = 0
  · rw [if_pos hop]
    exact ⟨_, rfl, MatchPost.unmatched h _ _⟩
  rw [if_neg hop]
  by_cases hnid : me.meMatchNid ≠ lnetNidAny ∧ me.meMatchNid ≠ info.miNid
  · rw [if_pos hnid]
    exact ⟨_, rfl, MatchPost.unmatched h _ _⟩
  rw [if_neg hnid]
  by_cases hpid : me.meMatchPid ≠ lnetPidAny ∧ me.meMatchPid ≠ info.miPid
  · rw [if_pos hpid]
    exact ⟨_, rfl, MatchPost.unmatched h _ _⟩
  rw [if_neg hpid]
  by_cases hbits : (me.meMatchBits ^^^ info.miMbits) &&& ~~~me.meIgnoreBits ≠ 0
  · rw [if_pos hbits]
    exact ⟨_, rfl, MatchPost.unmatched h _ _⟩
  rw [if_neg hbits]
  · -- a match: the offset is the MD's own, and what is left of the MD bounds the length
    obtain ⟨hthr, hroom⟩ := h.of_not_exhausted (Bool.of_not_eq_true hx)
    dsimp only
    rw [if_pos h.local_offset]
    have hleft : ∃ mlength, (if md.mdOptions &&& lnetMdMaxSize ≠ 0 then
        (if md.mdOffset + md.mdMaxSize ≤ md.mdLength then some md.mdMaxSize else none)
        else some (md.mdLength - md.mdOffset)) = some mlength ∧
          md.mdOffset.toNat + mlength.toNat ≤ md.mdLength.toNat := by
      by_cases hmax : md.mdOptions &&& lnetMdMaxSize ≠ 0
      · have hfit := hroom hmax
        have hsum : (md.mdOffset + md.mdMaxSize).toNat = md.mdOffset.toNat + md.mdMaxSize.toNat :=
          CArith.toNat_add_of_lt (by have := (h.max_size hmax).2; omega)
        rw [if_pos hmax, if_pos (UInt32.le_iff_toNat_le.mpr (by rw [hsum]; exact hfit))]
        exact ⟨_, rfl, hfit⟩
      · rw [if_neg hmax]
        have hoff := h.offset_le
        exact ⟨_, rfl, by rw [UInt32.toNat_sub_of_le _ _ (UInt32.le_iff_toNat_le.mpr hoff)]; omega⟩
    obtain ⟨mlength, hml, hfit⟩ := hleft
    rw [hml, Option.bind_some]
    split_ifs with hfits htrunc
    · exact lnetCommitMd_spec h hthr (UInt32.le_refl _)
        (by have := UInt32.le_iff_toNat_le.mp hfits; omega)
    · exact ⟨_, rfl, MatchPost.unmatched h _ _⟩
    · exact lnetCommitMd_spec h hthr (UInt32.le_of_lt (UInt32.not_le.mp hfits)) hfit

/-- Along every sequence of headers, an MD that manages its own offsets
keeps its invariant, and every message attached lands inside it. -/
theorem lnet_match_run_within (me : LnetMe) (h : MdInv md) (infos : List LnetMatchInfo) :
    ∃ rs md', StepRun.run (lnetMatchStep me) md infos = some (rs, md') ∧ MdInv md' ∧
      md'.mdLength = md.mdLength ∧ md'.mdKiov = md.mdKiov ∧
      ∀ r ∈ rs, ∀ off mlen, r.2 = some (off, mlen) → off.toNat + mlen.toNat ≤ md.mdLength.toNat := by
  let P : LnetLibmd → Prop := fun m => MdInv m ∧ m.mdLength = md.mdLength ∧ m.mdKiov = md.mdKiov
  have hstep : ∀ m info, (fun _ _ => True) m info → P m →
      ∃ r m', lnetMatchStep me m info = some (r, m') ∧
        (∀ off mlen, r.2 = some (off, mlen) → off.toNat + mlen.toNat ≤ md.mdLength.toNat) ∧ P m' := by
    intro m info _ ⟨hm, hlen, hkiov⟩
    unfold lnetMatchStep
    split_ifs
    · exact ⟨_, _, rfl, fun _ _ hatt => (by cases hatt), hm, hlen, hkiov⟩
    · obtain ⟨⟨rc, att, m'⟩, hr, hinv', hlen', hkiov', hatt⟩ := lnetTryMatchMd_spec hm me info
      rw [hr, Option.map_some]
      refine ⟨_, _, rfl, fun off mlen hsome => ?_, hinv', hlen'.trans hlen, hkiov'.trans hkiov⟩
      rw [← hlen]
      exact (hatt off mlen hsome).2.2
  obtain ⟨rs, md', hrun, hq, hinv, hlen, hkiov⟩ := StepRun.run_total (lnetMatchStep me) (fun _ _ => True) P _ hstep
    infos md (StepRun.allowedRun_of_forall _ (fun _ => True) infos md fun _ _ => trivial) ⟨h, rfl, rfl⟩
  exact ⟨rs, md', hrun, hinv, hlen, hkiov, hq⟩

end Match

/-! ## Building an MD -/

section Build

/-- The fragments of a contiguous buffer of `len` bytes cover it, each
within its page. -/
theorem lnetSplitPages_spec : ∀ (fuel pa : Nat) (len : Int), 0 ≤ len → len ≤ fuel → len < 2 ^ 32 →
    ((lnetSplitPages pa len fuel).map (·.bvLen.toNat)).sum = len.toNat ∧
      ∀ v ∈ lnetSplitPages pa len fuel, v.bvOffset.toNat + v.bvLen.toNat ≤ pageSize
  | 0, pa, len, h0, hle, _ => by
    have : len = 0 := by omega
    subst this
    exact ⟨rfl, fun v hv => by cases hv⟩
  | fuel + 1, pa, len, h0, hle, hlt => by
    unfold lnetSplitPages
    split_ifs with hz
    · subst hz
      exact ⟨rfl, fun v hv => by cases hv⟩
    · -- one page's worth: at least one byte, no more than the page has left
      have hps : pageSize = 4096 := rfl
      have hoff : pa % pageSize < pageSize := Nat.mod_lt _ (by decide)
      have hplen0 : 1 ≤ min len (pageSize - pa % pageSize : Nat) := by
        rw [Int.le_min]
        omega
      have hplen1 : min len (pageSize - pa % pageSize : Nat) ≤ len := Int.min_le_left _ _
      have hplen2 : min len (pageSize - pa % pageSize : Nat) ≤ (pageSize - pa % pageSize : Nat) := Int.min_le_right _ _
      have hrest0 : 0 ≤ len - min len (pageSize - pa % pageSize : Nat) := by omega
      have hrest1 : len - min len (pageSize - pa % pageSize : Nat) ≤ fuel := by omega
      have hrest2 : len - min len (pageSize - pa % pageSize : Nat) < 2 ^ 32 := by omega
      obtain ⟨hsum, hpage⟩ := lnetSplitPages_spec fuel (pa + (min len (pageSize - pa % pageSize : Nat)).toNat)
        (len - min len (pageSize - pa % pageSize : Nat)) hrest0 hrest1 hrest2
      have hlen : (UInt32.ofInt (min len (pageSize - pa % pageSize : Nat))).toNat =
          (min len (pageSize - pa % pageSize : Nat)).toNat := CArith.toNat_ofInt_of_lt (by omega) (by omega)
      have hoffs : (UInt32.ofNat (pa % pageSize)).toNat = pa % pageSize :=
        UInt32.toNat_ofNat_of_lt' (Nat.lt_of_lt_of_le hoff (by decide))
      refine ⟨?_, ?_⟩
      · rw [List.map_cons, List.sum_cons, hsum, hlen]
        omega
      · intro v hv
        rcases List.mem_cons.mp hv with rfl | hv
        · dsimp only
          rw [hoffs, hlen]
          omega
        · exact hpage v hv

/-- `lnet_md_build` of an MD that manages its own offsets, with a threshold
that is infinite or not negative, leaves the invariant. -/
theorem lnetMdBuild_inv {umd : LnetMd} {unlink : Bool} {md : LnetLibmd} (hbuild : lnetMdBuild umd unlink = some md)
    (hlocal : umd.options &&& lnetMdManageRemote = 0) (hthr : umd.threshold = lnetMdThreshInf ∨ 0 ≤ umd.threshold) :
    MdInv md := by
  unfold lnetMdBuild at hbuild
  dsimp only at hbuild
  generalize (if unlink = true then lnetMdFlagAutoUnlink else 0) = fl at hbuild
  rw [if_neg (fun hv => by rw [hv] at hbuild; cases hbuild)] at hbuild
  by_cases hkiov : (umd.options &&& lnetMdKiov != 0) = true
  · -- an array of fragments
    rw [if_pos hkiov] at hbuild
    split_ifs at hbuild with hpage hmax
    cases hbuild
    refine ⟨hlocal, Nat.zero_le _, fun hm => ?_, hthr⟩
    have hm' : umd.maxSize ≥ 0 ∧
        umd.maxSize ≤ CArith.narrowInt ((umd.startKiov.take umd.length.toNat).map (·.bvLen.toNat)).sum := by
      simp only [bne_iff_ne, ne_eq, not_and, not_or] at hmax
      obtain ⟨h1, h2⟩ := hmax hm
      exact ⟨by omega, by omega⟩
    have hlt := CArith.narrowInt_lt ((umd.startKiov.take umd.length.toNat).map (·.bvLen.toNat)).sum
    dsimp only
    rw [CArith.toNat_ofInt_of_lt hm'.1 (by omega), CArith.toNat_ofInt_of_lt (by omega) (by omega)]
    omega
  · -- a contiguous buffer, now flagged as fragments
    rw [if_neg hkiov] at hbuild
    split_ifs at hbuild with hmax
    cases hbuild
    have hopts : ∀ c, lnetMdKiov &&& c = 0 → (umd.options ||| lnetMdKiov) &&& c = umd.options &&& c :=
      fun c hc => CArith.or_and_of_and_eq_zero hc
    refine ⟨by dsimp only; rw [hopts _ (by decide)]; exact hlocal, Nat.zero_le _, fun hm => ?_, hthr⟩
    dsimp only at hm
    rw [hopts _ (by decide)] at hm
    have hm' : umd.maxSize ≥ 0 ∧ umd.maxSize ≤ CArith.narrowInt umd.length.toNat := by
      simp only [bne_iff_ne, ne_eq, not_and, not_or] at hmax
      obtain ⟨h1, h2⟩ := hmax hm
      exact ⟨by omega, by omega⟩
    have hlt := CArith.narrowInt_lt umd.length.toNat
    dsimp only
    rw [CArith.toNat_ofInt_of_lt hm'.1 (by omega), CArith.toNat_ofInt_of_lt (by omega) (by omega)]
    omega

/-- A contiguous buffer shorter than `2^31` becomes fragments that cover it. -/
theorem lnetMdBuild_frags {umd : LnetMd} {unlink : Bool} {md : LnetLibmd} (hbuild : lnetMdBuild umd unlink = some md)
    (hbuf : umd.options &&& lnetMdKiov = 0) (hlen : umd.length.toNat < 2 ^ 31) : FragsOk md := by
  unfold lnetMdBuild at hbuild
  have hnarrow : CArith.narrowInt umd.length.toNat = umd.length.toNat := CArith.narrowInt_of_lt hlen
  dsimp only at hbuild
  generalize (if unlink = true then lnetMdFlagAutoUnlink else 0) = fl at hbuild
  rw [if_neg (fun hv => by rw [hv] at hbuild; cases hbuild)] at hbuild
  rw [if_neg (by simp only [hbuf, bne_self_eq_false, Bool.false_eq_true, not_false_eq_true])] at hbuild
  split_ifs at hbuild with hmax
  cases hbuild
  obtain ⟨hsum, hpage⟩ := lnetSplitPages_spec (umd.length.toNat + 1) (umd.start.getD 0) umd.length.toNat
    (by omega) (by omega) (by omega)
  rw [hnarrow]
  refine ⟨?_, hpage⟩
  rw [hsum, CArith.toNat_ofInt_of_lt (by omega) (by omega)]

end Build

/-! ## Cutting the fragments of an attached message -/

section Extract

variable {dstNiov : Nat}

/-- The copying loop finds `len` bytes from `offset` when the fragments hold
them, each within its page, and `dst` has room for them all. -/
theorem lnetExtractCopy_some : ∀ (src : List BioVec) (v : BioVec) (offset len : UInt32) (niov : Nat),
    offset.toNat ≤ v.bvLen.toNat → 1 ≤ len.toNat →
    offset.toNat + len.toNat ≤ ((v :: src).map (·.bvLen.toNat)).sum → niov + src.length ≤ dstNiov →
    (∀ w ∈ v :: src, w.bvOffset.toNat + w.bvLen.toNat ≤ pageSize) →
    ∃ dst, lnetExtractCopy dstNiov (v :: src) offset len niov = some dst
  | src, v, offset, len, niov, hoff, hlen, hsum, hroom, hpage => by
    have hv := hpage v List.mem_cons_self
    have hfrag : (v.bvLen - offset).toNat = v.bvLen.toNat - offset.toNat :=
      UInt32.toNat_sub_of_le _ _ (UInt32.le_iff_toNat_le.mpr hoff)
    have hdst : (v.bvOffset + offset).toNat = v.bvOffset.toNat + offset.toNat :=
      CArith.toNat_add_of_lt (by unfold pageSize at hv; omega)
    rw [lnetExtractCopy, if_neg (by omega)]
    dsimp only
    by_cases hfits : len ≤ v.bvLen - offset
    · -- the rest lies in this fragment
      have hfits' := UInt32.le_iff_toNat_le.mp hfits
      rw [if_pos hfits, if_pos (UInt32.le_iff_toNat_le.mpr ?_)]
      · exact ⟨_, rfl⟩
      · rw [CArith.toNat_add_of_lt (by rw [hdst]; unfold pageSize at hv; omega), hdst, toNat_pageSize]
        omega
    · -- take all of this fragment and go on with the next
      have hgt := UInt32.lt_iff_toNat_lt.mp (UInt32.not_le.mp hfits)
      rw [hfrag] at hgt
      rw [if_neg hfits, if_pos (UInt32.le_iff_toNat_le.mpr ?_)]
      · cases src with
        | nil =>
          simp only [List.map_cons, List.map_nil, List.sum_cons, List.sum_nil] at hsum
          omega
        | cons w src =>
          have hrest : (len - (v.bvLen - offset)).toNat = len.toNat - (v.bvLen.toNat - offset.toNat) := by
            rw [UInt32.toNat_sub_of_le _ _ (UInt32.le_of_lt (UInt32.not_le.mp hfits)), hfrag]
          obtain ⟨dst, hdst'⟩ := lnetExtractCopy_some src w 0 (len - (v.bvLen - offset)) (niov + 1)
            (Nat.zero_le _) (by rw [hrest]; omega)
            (by
              rw [hrest, UInt32.toNat_zero, Nat.zero_add]
              simp only [List.map_cons, List.sum_cons] at hsum ⊢
              omega)
            (by simp only [List.length_cons] at hroom; omega)
            (fun u hu => hpage u (List.mem_cons_of_mem v hu))
          rw [hdst', Option.map_some]
          exact ⟨_, rfl⟩
      · rw [CArith.toNat_add_of_lt (by rw [hdst, hfrag]; unfold pageSize at hv; omega), hdst, hfrag, toNat_pageSize]
        omega

/-- The skipping loop reaches the fragment that holds `offset`. -/
theorem lnetExtractSkip_some (len : UInt32) (hlen : 1 ≤ len.toNat) :
    ∀ (src : List BioVec) (offset : UInt32),
    offset.toNat + len.toNat ≤ (src.map (·.bvLen.toNat)).sum → src.length ≤ dstNiov →
    (∀ w ∈ src, w.bvOffset.toNat + w.bvLen.toNat ≤ pageSize) →
    ∃ dst, lnetExtractSkip dstNiov len src offset = some dst
  | [], offset, hsum, _, _ => by
    simp only [List.map_nil, List.sum_nil] at hsum
    omega
  | v :: src, offset, hsum, hroom, hpage => by
    rw [lnetExtractSkip]
    by_cases hskip : offset ≥ v.bvLen
    · -- this fragment lies before `offset`: some later one holds it
      have hskip' := UInt32.le_iff_toNat_le.mp hskip
      rw [if_pos hskip]
      have hrest : (offset - v.bvLen).toNat = offset.toNat - v.bvLen.toNat := UInt32.toNat_sub_of_le _ _ hskip
      simp only [List.map_cons, List.sum_cons] at hsum
      cases src with
      | nil =>
        simp only [List.map_nil, List.sum_nil] at hsum
        omega
      | cons w src =>
        rw [if_neg (List.cons_ne_nil w src)]
        exact lnetExtractSkip_some len hlen (w :: src) (offset - v.bvLen) (by rw [hrest]; omega)
          (by simp only [List.length_cons] at hroom ⊢; omega) (fun u hu => hpage u (List.mem_cons_of_mem v hu))
    · rw [if_neg hskip]
      have hlt := UInt32.lt_iff_toNat_lt.mp (UInt32.not_le.mp hskip)
      exact lnetExtractCopy_some src v offset len 1 (by omega) hlen hsum
        (by simp only [List.length_cons] at hroom; omega) hpage

/-- `lnet_extract_kiov` of a region inside the fragments, each within its
page, into a `dst` with room for them all, returns without an assertion
failing. -/
theorem lnetExtractKiov_some {src : List BioVec} {offset len : UInt32}
    (hsum : offset.toNat + len.toNat ≤ (src.map (·.bvLen.toNat)).sum) (hroom : src.length ≤ dstNiov)
    (hpage : ∀ w ∈ src, w.bvOffset.toNat + w.bvLen.toNat ≤ pageSize) :
    ∃ dst, lnetExtractKiov dstNiov src offset len = some dst := by
  unfold lnetExtractKiov
  by_cases hz : len = 0
  · rw [if_pos hz]
    exact ⟨_, rfl⟩
  · rw [if_neg hz]
    have hlen : 1 ≤ len.toNat := by
      have : len.toNat ≠ 0 := fun h => hz (UInt32.toNat_inj.mp (by rw [h]; rfl))
      omega
    exact lnetExtractSkip_some len hlen src offset hsum hroom hpage

end Extract

/-- A contiguous buffer below `2^31` bytes that manages its own offsets:
along every sequence of headers, each message attached lands inside the
buffer, and the fragments for it can be cut out of the MD's. -/
theorem lnet_md_run_extract {umd : LnetMd} {unlink : Bool} {md : LnetLibmd} (hbuild : lnetMdBuild umd unlink = some md)
    (hlocal : umd.options &&& lnetMdManageRemote = 0) (hthr : umd.threshold = lnetMdThreshInf ∨ 0 ≤ umd.threshold)
    (hbuf : umd.options &&& lnetMdKiov = 0) (hlen : umd.length.toNat < 2 ^ 31) (me : LnetMe)
    (infos : List LnetMatchInfo) {dstNiov : Nat} (hroom : md.mdKiov.length ≤ dstNiov) :
    ∃ rs md', StepRun.run (lnetMatchStep me) md infos = some (rs, md') ∧
      ∀ r ∈ rs, ∀ off mlen, r.2 = some (off, mlen) → off.toNat + mlen.toNat ≤ md.mdLength.toNat ∧
        ∃ dst, lnetExtractKiov dstNiov md'.mdKiov off mlen = some dst := by
  have hfrags := lnetMdBuild_frags hbuild hbuf hlen
  obtain ⟨rs, md', hrun, -, -, hkiov, hatt⟩ := lnet_match_run_within me (lnetMdBuild_inv hbuild hlocal hthr) infos
  refine ⟨rs, md', hrun, fun r hr off mlen hsome => ⟨hatt r hr off mlen hsome, ?_⟩⟩
  rw [hkiov]
  exact lnetExtractKiov_some (by rw [hfrags.sum_eq]; exact hatt r hr off mlen hsome) hroom hfrags.in_page

/-- A contiguous buffer of 100 bytes for PUTs, managing its own offsets:
two PUTs of 10 and 30 bytes are attached one after the other, inside it. -/
theorem lnet_md_run_extract_two_puts :
    ∃ md, lnetMdBuild ⟨some 0, [], 100, -1, 0, lnetMdOpPut⟩ false = some md ∧
      ∃ rs md', StepRun.run (lnetMatchStep ⟨lnetNidAny, lnetPidAny, 0, 0⟩) md
          [⟨0, 12345, 1, lnetMdOpPut, 10, 0⟩, ⟨0, 12345, 1, lnetMdOpPut, 30, 0⟩] = some (rs, md') ∧
        ∀ r ∈ rs, ∀ off mlen, r.2 = some (off, mlen) → off.toNat + mlen.toNat ≤ md.mdLength.toNat ∧
          ∃ dst, lnetExtractKiov lnetMaxIov md'.mdKiov off mlen = some dst :=
  ⟨_, rfl, lnet_md_run_extract (show lnetMdBuild ⟨some 0, [], 100, -1, 0, lnetMdOpPut⟩ false = some _ from rfl)
    (by decide) (.inl rfl) (by decide) (by decide) _ _ (by decide)⟩

/-! ## A peer that chooses the offset -/

/-- A contiguous buffer of 100 bytes for PUTs with `LNET_MD_MANAGE_REMOTE`:
a PUT of 10 bytes at offset 200 is attached at 200, beyond the MD's end,
and `lnet_extract_kiov` of that region fails its assertion. -/
theorem lnet_try_match_md_remote_offset_outside :
    ∃ md, lnetMdBuild ⟨some 0, [], 100, -1, 0, lnetMdOpPut ||| lnetMdManageRemote⟩ false = some md ∧
      md.mdLength = 100 ∧
      ∃ md', lnetTryMatchMd md ⟨lnetNidAny, lnetPidAny, 0, 0⟩ ⟨0, 12345, 1, lnetMdOpPut, 10, 200⟩ =
          some (lnetMatchmdOk, some (200, 10), md') ∧
        lnetExtractKiov lnetMaxIov md.mdKiov 200 10 = none := by
  refine ⟨_, rfl, rfl, _, rfl, ?_⟩
  decide

end Lustre.Lnet
