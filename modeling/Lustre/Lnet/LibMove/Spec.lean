import Mathlib
import Lustre.Lnet.LibMove
import Lustre.Lnet.MatchMd.Spec

/-! # The copies between fragment vectors copy their windows

The loop of the `lnet_copy_*` functions keeps an invariant (`CursorInv`):
every fragment's length fits an `unsigned int`, each cursor lies within its
fragment, and the bytes still to copy lie within what is left of both
vectors. A turn copies the first `this_nob` bytes of the two pending windows
and leaves the rest pending (`lnetCopyTurn_spec`); by the chunked-copy rule
of `Gather`, the whole loop copies the two windows (`lnetCopyLoop_spec`),
in at most one turn per fragment but one, zero-length fragments included.
So each copy of `nob` bytes from windows within its vectors, into a
destination window with no address twice and apart from the source window,
returns the memory in which the destination window holds what the source
window held and nothing else changed.

The bound on the lengths is needed: a `kvec` whose `iov_len` is a multiple
of `2^32` past the cursor makes `this_nob` zero, and the turn leaves the
loop as it was (`lnetCopyTurn_stuck`).
-/

namespace Lustre.Lnet

open Gather

/-- One side of the copying loop: every length fits an `unsigned int`, and
the offset lies within the current fragment. -/
structure SideInv (fs : List Frag) (off : UInt32) : Prop where
  fit : ∀ f ∈ fs, f.len < 2 ^ 32
  off_le : off.toNat ≤ headLen fs

/-- The addresses still to be written. -/
def CopyCursor.dstWin (c : CopyCursor) : List Nat := window c.dst c.doff.toNat c.nob.toNat

/-- The addresses still to be read. -/
def CopyCursor.srcWin (c : CopyCursor) : List Nat := window c.src c.soff.toNat c.nob.toNat

/-- The invariant of the copying loop. -/
structure CursorInv (c : CopyCursor) : Prop where
  dst : SideInv c.dst c.doff
  src : SideInv c.src c.soff
  dst_room : c.doff.toNat + c.nob.toNat ≤ (bytes c.dst).length
  src_room : c.soff.toNat + c.nob.toNat ≤ (bytes c.src).length

/-- Bytes to copy from a position of a vector mean a fragment there. -/
theorem exists_cons_of_room {fs : List Frag} {off n : Nat} (h : off + n ≤ (bytes fs).length) (hn : 0 < n) :
    ∃ f fs', fs = f :: fs' := by
  cases fs with
  | nil =>
    rw [bytes_nil, List.length_nil] at h
    omega
  | cons f fs' => exact ⟨f, fs', rfl⟩

/-- `(unsigned int)len - off`, for an offset within a fragment whose length
fits. -/
theorem toNat_ofNat_sub {len : Nat} {off : UInt32} (hlen : len < 2 ^ 32) (h : off.toNat ≤ len) :
    (UInt32.ofNat len - off).toNat = len - off.toNat := by
  have hof : (UInt32.ofNat len).toNat = len := UInt32.toNat_ofNat_of_lt' hlen
  rw [UInt32.toNat_sub_of_le _ _ (UInt32.le_iff_toNat_le.mpr (by omega)), hof]

/-! ## The skipping loop -/

/-- From an offset within the vector, the skipping loop stops at a fragment
that holds it, with the same bytes from there on. -/
theorem lnetSkipFrags_spec : ∀ (fs : List Frag) (off : UInt32), off.toNat < (bytes fs).length →
    ∃ fs' off', lnetSkipFrags fs off = some (fs', off') ∧ fs' <:+ fs ∧ off'.toNat < headLen fs' ∧
      (bytes fs').drop off'.toNat = (bytes fs).drop off.toNat
  | [], off, h => by
    rw [bytes_nil, List.length_nil] at h
    omega
  | f :: fs, off, h => by
    rw [lnetSkipFrags]
    by_cases hskip : off.toNat ≥ f.len
    · -- the whole fragment lies before `off`
      rw [if_pos hskip]
      have hsub : (off - UInt32.ofNat f.len).toNat = off.toNat - f.len := by
        have hof : (UInt32.ofNat f.len).toNat = f.len :=
          UInt32.toNat_ofNat_of_lt' (Nat.lt_of_le_of_lt hskip off.toNat_lt)
        rw [UInt32.toNat_sub_of_le _ _ (UInt32.le_iff_toNat_le.mpr (by omega)), hof]
      rw [length_bytes_cons] at h
      obtain ⟨fs', off', hs, hsuf, hlt, hrest⟩ := lnetSkipFrags_spec fs (off - UInt32.ofNat f.len) (by omega)
      refine ⟨fs', off', hs, hsuf.trans (List.suffix_cons f fs), hlt, ?_⟩
      rw [hrest, hsub, drop_bytes_cons hskip]
    · rw [if_neg hskip]
      exact ⟨f :: fs, off, rfl, List.suffix_refl _, by rw [headLen_cons]; omega, rfl⟩

/-! ## A turn of the copying loop -/

section Advance

variable {f : Frag} {fs fs' : List Frag} {off n off' : UInt32}

/-- What `lnetAdvance` does: it stays in the fragment, `n` bytes on, while
some of it is left, and else goes to the start of the next one. -/
theorem lnetAdvance_cases (fs : List Frag) (hf : f.len < 2 ^ 32) (h : off.toNat + n.toNat ≤ f.len) :
    (off.toNat + n.toNat < f.len ∧ lnetAdvance f fs off n = (f :: fs, off + n) ∧
        (off + n).toNat = off.toNat + n.toNat) ∨
      (off.toNat + n.toNat = f.len ∧ lnetAdvance f fs off n = (fs, 0)) := by
  have hsum : (off + n).toNat = off.toNat + n.toNat := CArith.toNat_add_of_lt (by omega)
  unfold lnetAdvance
  by_cases hlt : off.toNat + n.toNat < f.len
  · rw [if_pos (by rw [hsum]; exact hlt)]
    exact .inl ⟨hlt, rfl, hsum⟩
  · rw [if_neg (by rw [hsum]; exact hlt)]
    exact .inr ⟨by omega, rfl⟩

/-- A cursor's move in a turn that copies `n` bytes of its fragment: it
stays a cursor, the bytes from it on are those from the old one but the
first `n`, and it is past the fragment once the fragment is used up. -/
theorem lnetAdvance_spec (hs : SideInv (f :: fs) off) (h : off.toNat + n.toNat ≤ f.len)
    (ha : lnetAdvance f fs off n = (fs', off')) :
    SideInv fs' off' ∧ (bytes fs').drop off'.toNat = ((bytes (f :: fs)).drop off.toNat).drop n.toNat ∧
      fs'.length ≤ fs.length + 1 ∧ (off.toNat + n.toNat = f.len → fs'.length ≤ fs.length) := by
  have hfit := hs.fit
  rw [List.drop_drop]
  rcases lnetAdvance_cases fs (hfit f List.mem_cons_self) h with ⟨hlt, hadv, hsum⟩ | ⟨heq, hadv⟩
  · -- still within the fragment
    rw [hadv, Prod.mk.injEq] at ha
    obtain ⟨rfl, rfl⟩ := ha
    refine ⟨⟨hfit, ?_⟩, by rw [hsum], by rw [List.length_cons], by omega⟩
    rw [headLen_cons, hsum]
    exact hlt.le
  · -- the fragment is used up
    rw [hadv, Prod.mk.injEq] at ha
    obtain ⟨rfl, rfl⟩ := ha
    refine ⟨⟨fun g hg => hfit g (List.mem_cons_of_mem f hg), by simp⟩, ?_, by omega, fun _ => le_refl _⟩
    rw [UInt32.toNat_zero, List.drop_zero, drop_bytes_cons (by omega), heq, Nat.sub_self, List.drop_zero]

end Advance

/-- A turn from a cursor that keeps the invariant, with bytes left to copy:
it copies the first `k` bytes of the pending windows, leaves the rest of
them pending, and keeps the invariant; unless that was the last turn, one
of the cursors has left its fragment. -/
theorem lnetCopyTurn_spec {c : CopyCursor} (hc : CursorInv c) (hnob : 0 < c.nob.toNat) :
    ∃ c' k, lnetCopyTurn c = some c' ∧ CursorInv c' ∧ k ≤ c.nob.toNat ∧ c'.nob.toNat = c.nob.toNat - k ∧
      c'.mem = copyAt c.mem (c.dstWin.take k) (c.srcWin.take k) ∧
      c'.dstWin = c.dstWin.drop k ∧ c'.srcWin = c.srcWin.drop k ∧
      (0 < c'.nob.toNat → c'.dst.length + c'.src.length < c.dst.length + c.src.length) := by
  obtain ⟨dst, doff, src, soff, nob, mem⟩ := c
  dsimp only at hnob
  obtain ⟨d, ds, rfl⟩ := exists_cons_of_room hc.dst_room hnob
  obtain ⟨s, ss, rfl⟩ := exists_cons_of_room hc.src_room hnob
  have hdside : SideInv (d :: ds) doff := hc.dst
  have hsside : SideInv (s :: ss) soff := hc.src
  have hdroom : doff.toNat + nob.toNat ≤ (bytes (d :: ds)).length := hc.dst_room
  have hsroom : soff.toNat + nob.toNat ≤ (bytes (s :: ss)).length := hc.src_room
  have hdoff : doff.toNat ≤ d.len := hdside.off_le
  have hsoff : soff.toNat ≤ s.len := hsside.off_le
  -- `this_nob`, the `min3`
  obtain ⟨thisNob, hthis⟩ : ∃ t, min (min (UInt32.ofNat d.len - doff) (UInt32.ofNat s.len - soff)) nob = t :=
    ⟨_, rfl⟩
  have hk : thisNob.toNat = min (min (d.len - doff.toNat) (s.len - soff.toNat)) nob.toNat := by
    rw [← hthis, UInt32.toNat_min, UInt32.toNat_min, toNat_ofNat_sub (hc.dst.fit d List.mem_cons_self) hdoff,
      toNat_ofNat_sub (hc.src.fit s List.mem_cons_self) hsoff]
  have hnob' : (nob - thisNob).toNat = nob.toNat - thisNob.toNat :=
    UInt32.toNat_sub_of_le _ _ (UInt32.le_iff_toNat_le.mpr (by omega))
  rcases hda : lnetAdvance d ds doff thisNob with ⟨dst', doff'⟩
  rcases hsa : lnetAdvance s ss soff thisNob with ⟨src', soff'⟩
  obtain ⟨hdinv, hdrest, hdlen, hdmove⟩ := lnetAdvance_spec hdside (by omega) hda
  obtain ⟨hsinv, hsrest, hslen, hsmove⟩ := lnetAdvance_spec hsside (by omega) hsa
  -- what is left from each new cursor on
  have hdleft := congrArg List.length hdrest
  have hsleft := congrArg List.length hsrest
  simp only [List.length_drop] at hdleft hsleft
  have hd' := headLen_le_length_bytes dst'
  have hs' := headLen_le_length_bytes src'
  have hdoff' := hdinv.off_le
  have hsoff' := hsinv.off_le
  refine ⟨⟨dst', doff', src', soff', nob - thisNob,
    memcpy mem (d.addr + doff.toNat) (s.addr + soff.toNat) thisNob.toNat⟩, thisNob.toNat,
    ?_, ⟨hdinv, hsinv, ?_, ?_⟩, by dsimp only; omega, hnob', ?_, ?_, ?_, ?_⟩
  · simp only [lnetCopyTurn, hthis, hda, hsa]
  · dsimp only
    omega
  · dsimp only
    omega
  · -- the `memcpy` is the copy of the windows' first `this_nob` bytes
    simp only [CopyCursor.dstWin, CopyCursor.srcWin]
    rw [take_window (by omega), take_window (by omega), window_cons_of_le (by omega),
      window_cons_of_le (by omega), memcpy]
  · simp only [CopyCursor.dstWin, window, hnob', hdrest, List.drop_take]
  · simp only [CopyCursor.srcWin, window, hnob', hsrest, List.drop_take]
  · -- a turn that leaves bytes to copy has used up one of the fragments
    intro hmore
    dsimp only at hmore ⊢
    rw [List.length_cons, List.length_cons]
    have hused : doff.toNat + thisNob.toNat = d.len ∨ soff.toNat + thisNob.toNat = s.len := by omega
    rcases hused with hused | hused
    · have := hdmove hused
      omega
    · have := hsmove hused
      omega

/-! ## The copying loop -/

/-- The loop, from a cursor that keeps the invariant, with bytes to copy,
a destination window with no address twice and a source window apart from
it, and fuel for a turn per fragment but one, copies the source window to
the destination window. -/
theorem lnetCopyLoop_spec : ∀ (fuel : Nat) (c : CopyCursor), CursorInv c → 0 < c.nob.toNat →
    c.dst.length + c.src.length ≤ fuel + 1 → c.dstWin.Nodup → (∀ a ∈ c.srcWin, a ∉ c.dstWin) →
    ∃ c', lnetCopyLoop fuel c = some c' ∧ c'.mem = copyAt c.mem c.dstWin c.srcWin
  | 0, c, hc, hnob, hfuel, _, _ => by
    -- a fragment on each side is already more than no fuel allows
    obtain ⟨d, ds, hd⟩ := exists_cons_of_room hc.dst_room hnob
    obtain ⟨s, ss, hs⟩ := exists_cons_of_room hc.src_room hnob
    rw [hd, hs, List.length_cons, List.length_cons] at hfuel
    omega
  | fuel + 1, c, hc, hnob, hfuel, hnd, hdisj => by
    obtain ⟨c₁, k, hturn, hc₁, hk, hnob₁, hmem, hdw, hsw, hprog⟩ := lnetCopyTurn_spec hc hnob
    have hlen : c.dstWin.length = c.srcWin.length := by
      rw [CopyCursor.dstWin, CopyCursor.srcWin, length_window hc.dst_room, length_window hc.src_room]
    rw [lnetCopyLoop, hturn, Option.bind_some]
    by_cases hmore : c₁.nob > 0
    · -- more turns: the rest of the windows, then the chunk-by-chunk rule
      rw [if_pos hmore]
      have hmore' : 0 < c₁.nob.toNat := UInt32.lt_iff_toNat_lt.mp hmore
      obtain ⟨c', hloop, hmem'⟩ := lnetCopyLoop_spec fuel c₁ hc₁ hmore' (by have := hprog hmore'; omega)
        (by rw [hdw]; exact hnd.sublist (List.drop_sublist _ _))
        (by
          rw [hdw, hsw]
          exact fun a ha ha' => hdisj a (List.mem_of_mem_drop ha) (List.mem_of_mem_drop ha'))
      refine ⟨c', hloop, ?_⟩
      rw [hmem', hmem, hdw, hsw, copyAt_take_drop _ k hlen hnd hdisj]
    · -- the last turn copied all that was left
      rw [if_neg hmore]
      have hall : c.nob.toNat ≤ k := by
        have : c₁.nob.toNat = 0 := by
          by_contra hne
          exact hmore (UInt32.lt_iff_toNat_lt.mpr (by rw [UInt32.toNat_zero]; omega))
        omega
      have hdl : c.dstWin.length ≤ k := by
        rw [CopyCursor.dstWin, length_window hc.dst_room]
        exact hall
      refine ⟨c₁, rfl, ?_⟩
      rw [hmem, List.take_of_length_le hdl, List.take_of_length_le (hlen ▸ hdl)]

/-- A turn at a fragment whose length, cast to `unsigned int`, is the
cursor's offset while the fragment goes on past it, with the source cursor
within its fragment, copies nothing and moves neither cursor. -/
theorem lnetCopyTurn_stuck {d s : Frag} (ds ss : List Frag) {doff soff : UInt32} (nob : UInt32) (mem : Nat → UInt8)
    (hd : d.len % 2 ^ 32 = doff.toNat) (hdlt : doff.toNat < d.len) (hs : soff.toNat < s.len) :
    lnetCopyTurn ⟨d :: ds, doff, s :: ss, soff, nob, mem⟩ = some ⟨d :: ds, doff, s :: ss, soff, nob, mem⟩ := by
  have hzero : UInt32.ofNat d.len - doff = 0 := by
    rw [UInt32.toNat_inj.mp (by rw [UInt32.toNat_ofNat', hd] : (UInt32.ofNat d.len).toNat = doff.toNat), sub_self]
  have hthis : min (min (UInt32.ofNat d.len - doff) (UInt32.ofNat s.len - soff)) nob = 0 := by
    rw [hzero]
    exact UInt32.toNat_inj.mp (by rw [UInt32.toNat_min, UInt32.toNat_min, UInt32.toNat_zero]; omega)
  have hda : lnetAdvance d ds doff 0 = (d :: ds, doff) := by
    rw [lnetAdvance, UInt32.add_zero, if_pos hdlt]
  have hsa : lnetAdvance s ss soff 0 = (s :: ss, soff) := by
    rw [lnetAdvance, UInt32.add_zero, if_pos hs]
  simp only [lnetCopyTurn, hthis, hda, hsa, UInt32.sub_zero, UInt32.toNat_zero, memcpy, List.range'_zero,
    copyAt_nil]

/-- A loop whose turn leaves the cursor as it was, with bytes to copy, runs
out of any fuel. -/
theorem lnetCopyLoop_none_of_fixed {c : CopyCursor} (hfix : lnetCopyTurn c = some c) (hnob : c.nob > 0) :
    ∀ fuel, lnetCopyLoop fuel c = none
  | 0 => rfl
  | fuel + 1 => by
    rw [lnetCopyLoop, hfix, Option.bind_some, if_pos hnob]
    exact lnetCopyLoop_none_of_fixed hfix hnob fuel

/-! ## The copies -/

/-- The body the four copies share: from windows within both vectors, the
destination window with no address twice and apart from the source window,
and fuel for a turn per fragment but one, it returns the memory in which
the destination window holds what the source window held. -/
theorem lnetCopyFrags_spec {fuel : Nat} {dst src : List Frag} {doffset soffset nob : UInt32} (mem : Nat → UInt8)
    (hdfit : ∀ f ∈ dst, f.len < 2 ^ 32) (hsfit : ∀ f ∈ src, f.len < 2 ^ 32)
    (hdroom : doffset.toNat + nob.toNat ≤ (bytes dst).length)
    (hsroom : soffset.toNat + nob.toNat ≤ (bytes src).length)
    (hnd : (window dst doffset.toNat nob.toNat).Nodup)
    (hdisj : ∀ a ∈ window src soffset.toNat nob.toNat, a ∉ window dst doffset.toNat nob.toNat)
    (hfuel : dst.length + src.length ≤ fuel + 1) :
    lnetCopyFrags fuel dst doffset src soffset nob mem =
      some (copyAt mem (window dst doffset.toNat nob.toNat) (window src soffset.toNat nob.toNat)) := by
  unfold lnetCopyFrags
  by_cases hz : nob = 0
  · rw [if_pos hz, hz, UInt32.toNat_zero, window, List.take_zero, copyAt_nil]
  rw [if_neg hz]
  have hpos : 0 < nob.toNat := by
    have : nob.toNat ≠ 0 := fun h => hz (UInt32.toNat_inj.mp (by rw [h, UInt32.toNat_zero]))
    omega
  obtain ⟨dst', doff, hds, hdsuf, hdlt, hdrest⟩ := lnetSkipFrags_spec dst doffset (by omega)
  obtain ⟨src', soff, hss, hssuf, hslt, hsrest⟩ := lnetSkipFrags_spec src soffset (by omega)
  -- the cursor after the skips has the same windows
  have hdleft := congrArg List.length hdrest
  have hsleft := congrArg List.length hsrest
  simp only [List.length_drop] at hdleft hsleft
  have hd' := headLen_le_length_bytes dst'
  have hs' := headLen_le_length_bytes src'
  have hc : CursorInv ⟨dst', doff, src', soff, nob, mem⟩ :=
    ⟨⟨fun f hf => hdfit f (hdsuf.subset hf), hdlt.le⟩, ⟨fun f hf => hsfit f (hssuf.subset hf), hslt.le⟩,
      by dsimp only; omega, by dsimp only; omega⟩
  have hdw : CopyCursor.dstWin ⟨dst', doff, src', soff, nob, mem⟩ = window dst doffset.toNat nob.toNat := by
    rw [CopyCursor.dstWin, window, window, hdrest]
  have hsw : CopyCursor.srcWin ⟨dst', doff, src', soff, nob, mem⟩ = window src soffset.toNat nob.toNat := by
    rw [CopyCursor.srcWin, window, window, hsrest]
  obtain ⟨c', hloop, hmem⟩ := lnetCopyLoop_spec fuel _ hc hpos
    (by have := hdsuf.length_le; have := hssuf.length_le; dsimp only; omega) (hdw ▸ hnd)
    (by rw [hdw, hsw]; exact hdisj)
  simp only [hds, hss, Option.bind_eq_bind, Option.bind_some, hloop]
  rw [← hdw, ← hsw, ← hmem]
  rfl

/-- Every fragment of a `bio_vec` vector fits an `unsigned int`. -/
theorem fit_kiov (kiov : List PagedBioVec) : ∀ f ∈ kiov.map PagedBioVec.frag, f.len < 2 ^ 32 := by
  intro f hf
  obtain ⟨v, -, rfl⟩ := List.mem_map.mp hf
  exact v.bvLen.toNat_lt

/-- The fragments of `kvec`s shorter than `2^32` fit an `unsigned int`. -/
theorem fit_iov {iov : List Kvec} (h : ∀ v ∈ iov, v.iovLen.toNat < 2 ^ 32) :
    ∀ f ∈ iov.map Kvec.frag, f.len < 2 ^ 32 := by
  intro f hf
  obtain ⟨v, hv, rfl⟩ := List.mem_map.mp hf
  exact h v hv

/-- `lnet_copy_kiov2kiov` copies `nob` bytes: from windows within both
vectors, into a destination window with no address twice and apart from the
source window, with fuel for a turn per fragment but one, it returns the
memory in which each address of the destination window holds what the
address at the same position of the source window held, and every other
address what it held before. -/
theorem lnet_copy_kiov2kiov_copies {fuel : Nat} {diov siov : List PagedBioVec} {doffset soffset nob : UInt32}
    (mem : Nat → UInt8)
    (hdroom : doffset.toNat + nob.toNat ≤ (bytes (diov.map PagedBioVec.frag)).length)
    (hsroom : soffset.toNat + nob.toNat ≤ (bytes (siov.map PagedBioVec.frag)).length)
    (hnd : (window (diov.map PagedBioVec.frag) doffset.toNat nob.toNat).Nodup)
    (hdisj : ∀ a ∈ window (siov.map PagedBioVec.frag) soffset.toNat nob.toNat,
      a ∉ window (diov.map PagedBioVec.frag) doffset.toNat nob.toNat)
    (hfuel : diov.length + siov.length ≤ fuel + 1) :
    lnetCopyKiov2kiov fuel diov doffset siov soffset nob mem =
      some (copyAt mem (window (diov.map PagedBioVec.frag) doffset.toNat nob.toNat)
        (window (siov.map PagedBioVec.frag) soffset.toNat nob.toNat)) :=
  lnetCopyFrags_spec mem (fit_kiov diov) (fit_kiov siov) hdroom hsroom hnd hdisj
    (by rw [List.length_map, List.length_map]; exact hfuel)

/-- Two bytes from two one-byte pages into one page. -/
theorem lnet_copy_kiov2kiov_copies_two_pages :
    (window (([⟨⟨0, 2⟩, 100⟩] : List PagedBioVec).map PagedBioVec.frag) 0 2).Nodup ∧
      lnetCopyKiov2kiov 2 [⟨⟨0, 2⟩, 100⟩] 0 [⟨⟨0, 1⟩, 200⟩, ⟨⟨5, 1⟩, 300⟩] 0 2 (fun _ => 0) =
        some (copyAt (fun _ => 0) [100, 101] [200, 305]) :=
  ⟨by decide,
    lnet_copy_kiov2kiov_copies (fun _ => 0) (by decide) (by decide) (by decide) (by decide) (by decide)⟩

/-- `lnet_copy_kiov2iov` copies `nob` bytes from `bio_vec`s into `kvec`s,
each shorter than `2^32`, as `lnet_copy_kiov2kiov` does. -/
theorem lnet_copy_kiov2iov_copies {fuel : Nat} {iov : List Kvec} {kiov : List PagedBioVec}
    {iovoffset kiovoffset nob : UInt32} (mem : Nat → UInt8) (hiov : ∀ v ∈ iov, v.iovLen.toNat < 2 ^ 32)
    (hdroom : iovoffset.toNat + nob.toNat ≤ (bytes (iov.map Kvec.frag)).length)
    (hsroom : kiovoffset.toNat + nob.toNat ≤ (bytes (kiov.map PagedBioVec.frag)).length)
    (hnd : (window (iov.map Kvec.frag) iovoffset.toNat nob.toNat).Nodup)
    (hdisj : ∀ a ∈ window (kiov.map PagedBioVec.frag) kiovoffset.toNat nob.toNat,
      a ∉ window (iov.map Kvec.frag) iovoffset.toNat nob.toNat)
    (hfuel : iov.length + kiov.length ≤ fuel + 1) :
    lnetCopyKiov2iov fuel iov iovoffset kiov kiovoffset nob mem =
      some (copyAt mem (window (iov.map Kvec.frag) iovoffset.toNat nob.toNat)
        (window (kiov.map PagedBioVec.frag) kiovoffset.toNat nob.toNat)) :=
  lnetCopyFrags_spec mem (fit_iov hiov) (fit_kiov kiov) hdroom hsroom hnd hdisj
    (by rw [List.length_map, List.length_map]; exact hfuel)

/-- Three bytes from a page, past one byte of it, into two `kvec`s. -/
theorem lnet_copy_kiov2iov_copies_two_kvecs :
    (∀ v ∈ ([⟨0, 1⟩, ⟨10, 4⟩] : List Kvec), v.iovLen.toNat < 2 ^ 32) ∧
      lnetCopyKiov2iov 3 [⟨0, 1⟩, ⟨10, 4⟩] 0 [⟨⟨2, 8⟩, 100⟩] 1 3 (fun _ => 0) =
        some (copyAt (fun _ => 0) [0, 10, 11] [103, 104, 105]) :=
  ⟨by decide,
    lnet_copy_kiov2iov_copies (fun _ => 0) (by decide) (by decide) (by decide) (by decide) (by decide) (by decide)⟩

/-- `lnet_copy_iov2kiov` copies `nob` bytes from `kvec`s, each shorter than
`2^32`, into `bio_vec`s, as `lnet_copy_kiov2kiov` does. -/
theorem lnet_copy_iov2kiov_copies {fuel : Nat} {kiov : List PagedBioVec} {iov : List Kvec}
    {kiovoffset iovoffset nob : UInt32} (mem : Nat → UInt8) (hiov : ∀ v ∈ iov, v.iovLen.toNat < 2 ^ 32)
    (hdroom : kiovoffset.toNat + nob.toNat ≤ (bytes (kiov.map PagedBioVec.frag)).length)
    (hsroom : iovoffset.toNat + nob.toNat ≤ (bytes (iov.map Kvec.frag)).length)
    (hnd : (window (kiov.map PagedBioVec.frag) kiovoffset.toNat nob.toNat).Nodup)
    (hdisj : ∀ a ∈ window (iov.map Kvec.frag) iovoffset.toNat nob.toNat,
      a ∉ window (kiov.map PagedBioVec.frag) kiovoffset.toNat nob.toNat)
    (hfuel : kiov.length + iov.length ≤ fuel + 1) :
    lnetCopyIov2kiov fuel kiov kiovoffset iov iovoffset nob mem =
      some (copyAt mem (window (kiov.map PagedBioVec.frag) kiovoffset.toNat nob.toNat)
        (window (iov.map Kvec.frag) iovoffset.toNat nob.toNat)) :=
  lnetCopyFrags_spec mem (fit_kiov kiov) (fit_iov hiov) hdroom hsroom hnd hdisj
    (by rw [List.length_map, List.length_map]; exact hfuel)

/-- Two bytes from a `kvec` with a zero-length one before it into a page. -/
theorem lnet_copy_iov2kiov_copies_empty_kvec :
    (∀ v ∈ ([⟨50, 0⟩, ⟨60, 2⟩] : List Kvec), v.iovLen.toNat < 2 ^ 32) ∧
      lnetCopyIov2kiov 3 [⟨⟨0, 4⟩, 100⟩] 2 [⟨50, 0⟩, ⟨60, 2⟩] 0 2 (fun _ => 0) =
        some (copyAt (fun _ => 0) [102, 103] [60, 61]) :=
  ⟨by decide,
    lnet_copy_iov2kiov_copies (fun _ => 0) (by decide) (by decide) (by decide) (by decide) (by decide) (by decide)⟩

/-- `lnet_copy_kiov2iov` into a `kvec` whose `iov_len`, a multiple of `2^32`
past `iovoffset`, is `iovoffset` once cast to `unsigned int`: after the
skips, the first turn copies nothing and leaves both cursors where they
were, so the loop never ends. -/
theorem lnet_copy_kiov2iov_stalls {v : Kvec} {iov : List Kvec} {kiov : List PagedBioVec}
    {iovoffset kiovoffset nob : UInt32} (mem : Nat → UInt8) (hlen : v.iovLen.toNat % 2 ^ 32 = iovoffset.toNat)
    (hbig : 2 ^ 32 ≤ v.iovLen.toNat) (hnob : 0 < nob.toNat)
    (hsrc : kiovoffset.toNat < (bytes (kiov.map PagedBioVec.frag)).length) :
    ∃ src soff, lnetSkipFrags (kiov.map PagedBioVec.frag) kiovoffset = some (src, soff) ∧
      lnetCopyTurn ⟨v.frag :: iov.map Kvec.frag, iovoffset, src, soff, nob, mem⟩ =
        some ⟨v.frag :: iov.map Kvec.frag, iovoffset, src, soff, nob, mem⟩ ∧
      ∀ fuel, lnetCopyKiov2iov fuel (v :: iov) iovoffset kiov kiovoffset nob mem = none := by
  have hoff : iovoffset.toNat < v.frag.len := Nat.lt_of_lt_of_le iovoffset.toNat_lt hbig
  -- the `kvec` is not skipped
  have hdskip : lnetSkipFrags (v.frag :: iov.map Kvec.frag) iovoffset = some (v.frag :: iov.map Kvec.frag, iovoffset) := by
    rw [lnetSkipFrags, if_neg (Nat.not_le.mpr hoff)]
  obtain ⟨src, soff, hss, -, hslt, -⟩ := lnetSkipFrags_spec _ kiovoffset hsrc
  obtain ⟨s, ss, rfl⟩ : ∃ s ss, src = s :: ss := by
    cases src with
    | nil => exact absurd hslt (Nat.not_lt_zero _)
    | cons s ss => exact ⟨s, ss, rfl⟩
  have hfix := lnetCopyTurn_stuck (iov.map Kvec.frag) ss nob mem hlen hoff hslt
  refine ⟨s :: ss, soff, hss, hfix, fun fuel => ?_⟩
  have hz : nob ≠ 0 := fun h => by rw [h, UInt32.toNat_zero] at hnob; exact Nat.lt_irrefl 0 hnob
  rw [lnetCopyKiov2iov, lnetCopyFrags, if_neg hz, List.map_cons]
  simp only [hdskip, hss, Option.bind_eq_bind, Option.bind_some,
    lnetCopyLoop_none_of_fixed hfix (UInt32.lt_iff_toNat_lt.mpr hnob) fuel, Option.bind_none]

/-- A 4 GiB `kvec` from offset 0: the copy of one byte never returns. -/
theorem lnet_copy_kiov2iov_stalls_four_gib :
    (⟨0, 2 ^ 32⟩ : Kvec).iovLen.toNat % 2 ^ 32 = (0 : UInt32).toNat ∧ 2 ^ 32 ≤ (⟨0, 2 ^ 32⟩ : Kvec).iovLen.toNat ∧
      ∀ fuel, lnetCopyKiov2iov fuel [⟨0, 2 ^ 32⟩] 0 [⟨⟨0, 1⟩, 4096⟩] 0 1 (fun _ => 0) = none := by
  obtain ⟨_, _, _, _, hnone⟩ := @lnet_copy_kiov2iov_stalls ⟨0, 2 ^ 32⟩ [] [⟨⟨0, 1⟩, 4096⟩] 0 0 1 (fun _ => 0)
    (by decide) (by decide) (by decide) (by decide)
  exact ⟨by decide, by decide, hnone⟩

/-! ## The fragments `lnet_extract_kiov` cuts

`lnetExtractKiov` of `MatchMd` keeps each fragment's offset and length, not
its page: `dst->bv_page` is the page of the source fragment it is cut from.
So its fragments are placed on the pages of the source fragments from the
first one it does not skip on. -/

@[simp] theorem onPages_cons (p : Nat) (ps : List Nat) (v : BioVec) (vs : List BioVec) :
    onPages (p :: ps) (v :: vs) = ⟨v, p⟩ :: onPages ps vs := rfl

theorem frag_onPages_cons (p : Nat) (ps : List Nat) (v : BioVec) (vs : List BioVec) :
    (onPages (p :: ps) (v :: vs)).map PagedBioVec.frag =
      ⟨p + v.bvOffset.toNat, v.bvLen.toNat⟩ :: (onPages ps vs).map PagedBioVec.frag := rfl

section Extract

variable {dstNiov : Nat}

/-- Whenever the copying loop of `lnet_extract_kiov` returns, from an offset
within the first fragment, each fragment within its page: the fragments it
wrote, as many as `dst` has room for, are the `len` bytes from the offset. -/
theorem lnetExtractCopy_window : ∀ (src : List BioVec) (v : BioVec) (offset len : UInt32) (niov : Nat)
    (dst : List BioVec), lnetExtractCopy dstNiov (v :: src) offset len niov = some dst →
    offset.toNat ≤ v.bvLen.toNat → (∀ w ∈ v :: src, w.bvOffset.toNat + w.bvLen.toNat ≤ pageSize) →
    niov + dst.length ≤ dstNiov + 1 ∧ ∀ (p : Nat) (ps : List Nat), ps.length = src.length →
      bytes ((onPages (p :: ps) dst).map PagedBioVec.frag) =
        window ((onPages (p :: ps) (v :: src)).map PagedBioVec.frag) offset.toNat len.toNat
  | src, v, offset, len, niov, dst, h, hoff, hpage => by
    have hv := hpage v List.mem_cons_self
    have hfrag : (v.bvLen - offset).toNat = v.bvLen.toNat - offset.toNat :=
      UInt32.toNat_sub_of_le _ _ (UInt32.le_iff_toNat_le.mpr hoff)
    have hdst : (v.bvOffset + offset).toNat = v.bvOffset.toNat + offset.toNat :=
      CArith.toNat_add_of_lt (by unfold pageSize at hv; omega)
    rw [lnetExtractCopy] at h
    -- LASSERT((int)niov <= dst_niov)
    have hniov : ¬niov > dstNiov := fun hn => by rw [if_pos hn] at h; cases h
    rw [if_neg hniov] at h
    dsimp only at h
    by_cases hfits : len ≤ v.bvLen - offset
    · -- the rest lies in this fragment
      have hfits' := UInt32.le_iff_toNat_le.mp hfits
      rw [hfrag] at hfits'
      rw [if_pos hfits] at h
      have hin : v.bvOffset + offset + len ≤ UInt32.ofNat pageSize := by
        by_contra hn
        rw [if_neg hn] at h
        cases h
      rw [if_pos hin] at h
      cases h
      refine ⟨by rw [List.length_singleton]; omega, fun p ps _ => ?_⟩
      rw [frag_onPages_cons p ps v src, window_cons_of_le (by dsimp only; omega), onPages, List.zipWith_cons_cons,
        List.zipWith_nil_right, List.map_singleton, bytes_cons, bytes_nil, List.append_nil]
      simp only [PagedBioVec.frag, hdst, Nat.add_assoc]
    · -- take the rest of this fragment and go on with the next
      have hgt := UInt32.lt_iff_toNat_lt.mp (UInt32.not_le.mp hfits)
      rw [hfrag] at hgt
      rw [if_neg hfits] at h
      have hin : v.bvOffset + offset + (v.bvLen - offset) ≤ UInt32.ofNat pageSize := by
        by_contra hn
        rw [if_neg hn] at h
        cases h
      rw [if_pos hin] at h
      obtain ⟨dst', hrec, rfl⟩ := Option.map_eq_some_iff.mp h
      cases src with
      | nil => simp [lnetExtractCopy] at hrec
      | cons w src =>
        have hrest : (len - (v.bvLen - offset)).toNat = len.toNat - (v.bvLen.toNat - offset.toNat) := by
          rw [UInt32.toNat_sub_of_le _ _ (UInt32.le_of_lt (UInt32.not_le.mp hfits)), hfrag]
        obtain ⟨hlen, hbytes⟩ := lnetExtractCopy_window src w 0 _ (niov + 1) dst' hrec (Nat.zero_le _)
          (fun u hu => hpage u (List.mem_cons_of_mem v hu))
        refine ⟨by rw [List.length_cons]; omega, fun p ps hps => ?_⟩
        obtain ⟨q, qs, rfl⟩ : ∃ q qs, ps = q :: qs := List.exists_cons_of_length_eq_add_one hps
        rw [frag_onPages_cons p (q :: qs) v (w :: src), window_cons_of_len_le hoff (by dsimp only; omega), onPages_cons,
          List.map_cons, bytes_cons,
          hbytes q qs (Nat.succ.inj hps), UInt32.toNat_zero, hrest]
        simp only [PagedBioVec.frag, hdst, hfrag, Nat.add_assoc]

/-- Whenever the skipping loop of `lnet_extract_kiov` returns, each fragment
within its page: the fragments written, at most `dst_niov`, are the `len`
bytes from `offset`, on the pages of the source fragments from the `k`-th on. -/
theorem lnetExtractSkip_window (len : UInt32) : ∀ (src : List BioVec) (offset : UInt32) (dst : List BioVec),
    lnetExtractSkip dstNiov len src offset = some dst → (∀ w ∈ src, w.bvOffset.toNat + w.bvLen.toNat ≤ pageSize) →
    dst.length ≤ dstNiov ∧ ∃ k, ∀ pages : List Nat, pages.length = src.length →
      bytes ((onPages (pages.drop k) dst).map PagedBioVec.frag) =
        window ((onPages pages src).map PagedBioVec.frag) offset.toNat len.toNat
  | [], _, _, h, _ => by cases h
  | v :: src, offset, dst, h, hpage => by
    rw [lnetExtractSkip] at h
    by_cases hskip : offset ≥ v.bvLen
    · -- the whole fragment lies before `offset`
      rw [if_pos hskip] at h
      have hskip' := UInt32.le_iff_toNat_le.mp hskip
      cases src with
      | nil => cases h
      | cons w src =>
        rw [if_neg (List.cons_ne_nil w src)] at h
        obtain ⟨hlen, k, hbytes⟩ := lnetExtractSkip_window len (w :: src) (offset - v.bvLen) dst h
          (fun u hu => hpage u (List.mem_cons_of_mem v hu))
        refine ⟨hlen, k + 1, fun pages hps => ?_⟩
        obtain ⟨p, ps, rfl⟩ : ∃ p ps, pages = p :: ps := List.exists_cons_of_length_eq_add_one hps
        rw [List.drop_succ_cons, hbytes ps (Nat.succ.inj hps), frag_onPages_cons, window, window,
          drop_bytes_cons hskip', UInt32.toNat_sub_of_le _ _ hskip]
    · rw [if_neg hskip] at h
      have hlt := UInt32.lt_iff_toNat_lt.mp (UInt32.not_le.mp hskip)
      obtain ⟨hlen, hbytes⟩ := lnetExtractCopy_window src v offset len 1 dst h hlt.le hpage
      refine ⟨by omega, 0, fun pages hps => ?_⟩
      obtain ⟨p, ps, rfl⟩ : ∃ p ps, pages = p :: ps := List.exists_cons_of_length_eq_add_one hps
      rw [List.drop_zero]
      exact hbytes p ps (Nat.succ.inj hps)

/-- `lnet_extract_kiov(dst_niov, dst, src_niov, src, offset, len)` of a
region within the source fragments, each within its page, into a `dst` with
room for them all, returns without an assertion failing, at most `dst_niov`
fragments, and those fragments, on the pages of the source fragments they
are cut from, are exactly the `len` bytes of the source from `offset`. -/
theorem lnet_extract_kiov_window {src : List BioVec} {offset len : UInt32}
    (hsum : offset.toNat + len.toNat ≤ (src.map (·.bvLen.toNat)).sum) (hroom : src.length ≤ dstNiov)
    (hpage : ∀ w ∈ src, w.bvOffset.toNat + w.bvLen.toNat ≤ pageSize) :
    ∃ dst k, lnetExtractKiov dstNiov src offset len = some dst ∧ dst.length ≤ dstNiov ∧
      ∀ pages : List Nat, pages.length = src.length →
        bytes ((onPages (pages.drop k) dst).map PagedBioVec.frag) =
          window ((onPages pages src).map PagedBioVec.frag) offset.toNat len.toNat := by
  obtain ⟨dst, h⟩ := lnetExtractKiov_some hsum hroom hpage
  unfold lnetExtractKiov at h
  by_cases hz : len = 0
  · -- no data, no fragments
    rw [if_pos hz] at h
    cases h
    refine ⟨[], 0, by rw [lnetExtractKiov, if_pos hz], Nat.zero_le _, fun pages _ => ?_⟩
    rw [hz, UInt32.toNat_zero, window, List.take_zero, onPages, List.zipWith_nil_right, List.map_nil, bytes_nil]
  · rw [if_neg hz] at h
    obtain ⟨hlen, k, hbytes⟩ := lnetExtractSkip_window len src offset dst h hpage
    exact ⟨dst, k, by rw [lnetExtractKiov, if_neg hz]; exact h, hlen, hbytes⟩

/-- Seven bytes from offset 6 of three fragments of 4 bytes: the second
fragment from its third byte, and the third one. -/
theorem lnet_extract_kiov_window_three :
    (6 : UInt32).toNat + (6 : UInt32).toNat ≤ (([⟨0, 4⟩, ⟨8, 4⟩, ⟨100, 4⟩] : List BioVec).map (·.bvLen.toNat)).sum ∧
      ∃ dst k, lnetExtractKiov 3 [⟨0, 4⟩, ⟨8, 4⟩, ⟨100, 4⟩] 6 6 = some dst ∧ dst.length ≤ 3 ∧
        ∀ pages : List Nat, pages.length = 3 →
          bytes ((onPages (pages.drop k) dst).map PagedBioVec.frag) =
            window ((onPages pages [⟨0, 4⟩, ⟨8, 4⟩, ⟨100, 4⟩]).map PagedBioVec.frag) 6 6 :=
  ⟨by decide, lnet_extract_kiov_window (by decide) (by decide) (by decide)⟩

end Extract

end Lustre.Lnet
