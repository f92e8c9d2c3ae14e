import Mathlib
import Lustre.Lib.Align
import Lustre.Osc.Cache

/-! # The extent tree and its invariant

What an extent in the tree of an OSC object satisfies (`ExtentWF`): it lies
under its lock and inside its RPC window, its ends sit on chunk edges unless
the window or the lock cuts them, it is no larger than
`cl_max_extent_pages`, its users match its state, and while it is active or
cached it holds one chunk of grant per chunk it spans plus the extent tax
(`Charged`). The tree (`OscInv`) holds such extents sorted and apart, with
locks that are equal or cover disjoint pages, and distinct addresses.

The rest of the module is about the list that stands for the tree: where an
extent sits in it (`pre ++ x :: post`), what the walks of the search and the
insertion return, and the frame lemmas for writing back, removing and
inserting an extent.
-/

namespace Lustre.Osc

/-! ## The invariant -/

/-- Two locks are one lock or cover disjoint pages. -/
def LockCompat (l1 l2 : OscLock) : Prop := l1 = l2 ∨ l1.cldEnd < l2.cldStart ∨ l2.cldEnd < l1.cldStart

instance (l1 l2 : OscLock) : Decidable (LockCompat l1 l2) :=
  inferInstanceAs (Decidable (l1 = l2 ∨ l1.cldEnd < l2.cldStart ∨ l2.cldEnd < l1.cldStart))

theorem LockCompat.symm {l1 l2 : OscLock} (h : LockCompat l1 l2) : LockCompat l2 l1 := by
  rcases h with h | h | h
  · exact .inl h.symm
  · exact .inr (.inr h)
  · exact .inr (.inl h)

/-- Two locks that both cover a page are one lock. -/
theorem LockCompat.eq_of_mem {l1 l2 : OscLock} (h : LockCompat l1 l2) {x : Nat} (h1 : l1.cldStart ≤ x)
    (h1' : x ≤ l1.cldEnd) (h2 : l2.cldStart ≤ x) (h2' : x ≤ l2.cldEnd) : l1 = l2 := by
  rcases h with h | h | h
  · exact h
  · omega
  · omega

section Shape

variable (cli : ClientObd)

/-- The place of an extent: under its lock, inside its RPC window, with its
ends on chunk edges unless the window or the lock cuts them, and no larger
than the server allows. -/
structure ExtentShape (e : OscExtent) : Prop where
  lockStart : e.oeDlmlock.cldStart ≤ e.oeStart
  startLe : e.oeStart ≤ e.oeEnd
  endLe : e.oeEnd ≤ e.oeMaxEnd
  maxEndLe : e.oeMaxEnd ≤ e.oeDlmlock.cldEnd
  window : e.oeMaxEnd < e.oeStart + e.oeMppr
  startAligned : e.oeStart % 2 ^ ppcBits cli = 0 ∨ e.oeStart = e.oeDlmlock.cldStart
  endAligned : (e.oeEnd + 1) % 2 ^ ppcBits cli = 0 ∨ e.oeEnd = e.oeMaxEnd
  maxEndAligned : (e.oeMaxEnd + 1) % 2 ^ ppcBits cli = 0 ∨ e.oeMaxEnd = e.oeDlmlock.cldEnd
  size : e.oeEnd - e.oeStart + 1 ≤ cli.clMaxExtentPages

/-- The number of chunks an extent spans. -/
def chunkSpan (e : OscExtent) : Nat := e.oeEnd / 2 ^ ppcBits cli - e.oeStart / 2 ^ ppcBits cli + 1

/-- One chunk of grant per chunk spanned, plus the extent tax. -/
def Charged (e : OscExtent) : Prop := e.oeGrants = chunkSpan cli e * chunksize cli + cli.clGrantExtentTax

/-- An extent as it is in the tree. -/
structure ExtentWF (e : OscExtent) : Prop extends ExtentShape cli e where
  notInv : e.oeState ≠ .inv
  users : e.oeState = .active ↔ 0 < e.oeUsers
  charged : e.oeState = .active ∨ e.oeState = .cache → Charged cli e

/-- The tree of an object: extents in order and apart, under locks that are
one or disjoint, at distinct addresses below the next one. -/
structure OscInv (obj : OscObject) : Prop where
  sorted : obj.ooRoot.Pairwise fun a b => a.oeEnd < b.oeStart
  locks : obj.ooRoot.Pairwise fun a b => LockCompat a.oeDlmlock b.oeDlmlock
  idsNodup : (obj.ooRoot.map (·.oeId)).Nodup
  idsLt : ∀ e ∈ obj.ooRoot, e.oeId < obj.ooNextId
  wf : ∀ e ∈ obj.ooRoot, ExtentWF cli e

theorem OscInv.empty (n : Nat) : OscInv cli ⟨[], n⟩ :=
  ⟨List.Pairwise.nil, List.Pairwise.nil, List.nodup_nil, fun _ h => (by cases h), fun _ h => (by cases h)⟩

theorem chunksize_pos : 0 < chunksize cli := Nat.two_pow_pos _

/-- Every extent of the tree passes `osc_extent_sanity_check`. -/
theorem ExtentWF.sanity {e : OscExtent} (h : ExtentWF cli e) : oscExtentSanityCheck e = 0 := by
  have hs := h.toExtentShape
  have hcs := chunksize_pos cli
  unfold oscExtentSanityCheck
  by_cases hinv : e.oeState = .inv
  · simp [hinv]
  · -- past the state checks, the bounds and the lock hold by the shape
    have h40 : ¬ (e.oeState = .active ∧ e.oeUsers = 0) := fun h4 => by
      have := h.users.mp h4.1
      omega
    have h60 : ¬ (e.oeState = .cache ∧ e.oeGrants = 0) := fun h6 => by
      have hc := h.charged (.inr h6.1)
      unfold Charged at hc
      have : 0 < chunkSpan cli e * chunksize cli := Nat.mul_pos (by unfold chunkSpan; omega) hcs
      omega
    have h70 : ¬ (e.oeState ≠ .active ∧ 0 < e.oeUsers) := fun h7 => h7.1 (h.users.mpr h7.2)
    have h80 : ¬ (e.oeMaxEnd < e.oeEnd ∨ e.oeEnd < e.oeStart) := by
      have := hs.endLe
      have := hs.startLe
      omega
    have h100 : e.oeDlmlock.cldStart ≤ e.oeStart ∧ e.oeMaxEnd ≤ e.oeDlmlock.cldEnd := ⟨hs.lockStart, hs.maxEndLe⟩
    rw [if_neg hinv, if_neg h40, if_neg h60, if_neg h70, if_neg h80, if_neg (not_not.mpr h100)]

end Shape

/-! ## Where an extent sits in the tree -/

section Split

variable {pre post : List OscExtent} {x : OscExtent}

theorem ne_of_mem_pre (hnd : ((pre ++ x :: post).map (·.oeId)).Nodup) {y : OscExtent} (hy : y ∈ pre) :
    y.oeId ≠ x.oeId := by
  rw [List.map_append, List.nodup_append] at hnd
  exact hnd.2.2 _ (List.mem_map_of_mem hy) _ (by simp)

theorem ne_of_mem_post (hnd : ((pre ++ x :: post).map (·.oeId)).Nodup) {y : OscExtent} (hy : y ∈ post) :
    y.oeId ≠ x.oeId := by
  rw [List.map_append, List.nodup_append, List.map_cons, List.nodup_cons] at hnd
  exact fun h => hnd.2.1.1 (h ▸ List.mem_map_of_mem hy)

theorem dropWhile_split (hnd : ((pre ++ x :: post).map (·.oeId)).Nodup) :
    (pre ++ x :: post).dropWhile (·.oeId ≠ x.oeId) = x :: post := by
  have hpre := fun y (hy : y ∈ pre) => ne_of_mem_pre hnd hy
  clear hnd
  induction pre with
  | nil => simp
  | cons y pre ih =>
    have hy := hpre y (by simp)
    simp only [List.cons_append, List.dropWhile_cons, ne_eq, hy, not_false_eq_true, decide_true]
    exact ih fun z hz => hpre z (by simp [hz])

theorem takeWhile_split (hnd : ((pre ++ x :: post).map (·.oeId)).Nodup) :
    (pre ++ x :: post).takeWhile (·.oeId ≠ x.oeId) = pre := by
  have hpre := fun y (hy : y ∈ pre) => ne_of_mem_pre hnd hy
  clear hnd
  induction pre with
  | nil => simp
  | cons y pre ih =>
    have hy := hpre y (by simp)
    simp only [List.cons_append, List.takeWhile_cons, ne_eq, hy, not_false_eq_true, decide_true, ↓reduceIte]
    rw [ih fun z hz => hpre z (by simp [hz])]

theorem find?_split (hnd : ((pre ++ x :: post).map (·.oeId)).Nodup) :
    (pre ++ x :: post).find? (·.oeId = x.oeId) = some x := by
  have hpre := fun y (hy : y ∈ pre) => ne_of_mem_pre hnd hy
  clear hnd
  induction pre with
  | nil => simp
  | cons y pre ih =>
    have hy := hpre y (by simp)
    simp only [List.cons_append, List.find?_cons, hy, decide_false]
    exact ih fun z hz => hpre z (by simp [hz])

/-- Writing back an extent changes its place only. -/
theorem map_set_split (hnd : ((pre ++ x :: post).map (·.oeId)).Nodup) {e : OscExtent} (he : e.oeId = x.oeId) :
    (pre ++ x :: post).map (fun y => if y.oeId = e.oeId then e else y) = pre ++ e :: post := by
  rw [List.map_append, List.map_cons, he, if_pos rfl]
  have hpre : pre.map (fun y => if y.oeId = x.oeId then e else y) = pre :=
    (List.map_congr_left fun y hy => if_neg (ne_of_mem_pre hnd hy)).trans (List.map_id pre)
  have hpost : post.map (fun y => if y.oeId = x.oeId then e else y) = post :=
    (List.map_congr_left fun y hy => if_neg (ne_of_mem_post hnd hy)).trans (List.map_id post)
  rw [hpre, hpost]

/-- Removing an extent leaves the others in order. -/
theorem filter_erase_split (hnd : ((pre ++ x :: post).map (·.oeId)).Nodup) :
    (pre ++ x :: post).filter (·.oeId ≠ x.oeId) = pre ++ post := by
  have hpre : pre.filter (·.oeId ≠ x.oeId) = pre :=
    List.filter_eq_self.mpr fun y hy => by simpa using ne_of_mem_pre hnd hy
  have hpost : post.filter (·.oeId ≠ x.oeId) = post :=
    List.filter_eq_self.mpr fun y hy => by simpa using ne_of_mem_post hnd hy
  rw [List.filter_append, List.filter_cons_of_neg (by simp), hpre, hpost]

variable {obj : OscObject}

theorem extentsFrom_split (hnd : (obj.ooRoot.map (·.oeId)).Nodup) (hsplit : obj.ooRoot = pre ++ x :: post) :
    extentsFrom obj x = x :: post := by
  unfold extentsFrom
  rw [hsplit] at hnd ⊢
  exact dropWhile_split hnd

theorem nextExtent_split (hnd : (obj.ooRoot.map (·.oeId)).Nodup) (hsplit : obj.ooRoot = pre ++ x :: post) :
    nextExtent obj x = post.head? := by
  unfold nextExtent
  rw [extentsFrom_split hnd hsplit]
  rfl

theorem prevExtent_split (hnd : (obj.ooRoot.map (·.oeId)).Nodup) (hsplit : obj.ooRoot = pre ++ x :: post) :
    prevExtent obj x = pre.getLast? := by
  unfold prevExtent
  rw [hsplit] at hnd ⊢
  rw [takeWhile_split hnd]

theorem lookupExtent_split (hnd : (obj.ooRoot.map (·.oeId)).Nodup) (hsplit : obj.ooRoot = pre ++ x :: post) :
    lookupExtent obj x.oeId = some x := by
  unfold lookupExtent
  rw [hsplit] at hnd ⊢
  exact find?_split hnd

theorem setExtent_split (hnd : (obj.ooRoot.map (·.oeId)).Nodup) (hsplit : obj.ooRoot = pre ++ x :: post)
    {e : OscExtent} (he : e.oeId = x.oeId) : (obj.setExtent e).ooRoot = pre ++ e :: post := by
  unfold OscObject.setExtent
  rw [hsplit] at hnd ⊢
  exact map_set_split hnd he

theorem eraseExtent_split (hnd : (obj.ooRoot.map (·.oeId)).Nodup) (hsplit : obj.ooRoot = pre ++ x :: post) :
    (obj.eraseExtent x.oeId).ooRoot = pre ++ post := by
  unfold OscObject.eraseExtent
  rw [hsplit] at hnd ⊢
  exact filter_erase_split hnd

@[simp] theorem setExtent_ooNextId (e : OscExtent) : (obj.setExtent e).ooNextId = obj.ooNextId := rfl

@[simp] theorem eraseExtent_ooNextId (id : Nat) : (obj.eraseExtent id).ooNextId = obj.ooNextId := rfl

end Split

/-! ## The walks of the search and the insertion -/

section Walks

/-- The list is sorted: each extent ends before the next starts. -/
def Sorted (l : List OscExtent) : Prop := l.Pairwise fun a b => a.oeEnd < b.oeStart

variable {index : Nat}

/-- What the descent of `osc_extent_search` finds on a sorted list: the
extent it stops at has everything before it ending before `index` and
everything after it starting after `index`; when it finds none, every
extent starts after `index`. -/
theorem extentSearchWalk_spec :
    ∀ (l : List OscExtent) (p : Option OscExtent), Sorted l → (∀ e ∈ l, e.oeStart ≤ e.oeEnd) →
      (extentSearchWalk index l p = p ∧ ∀ y ∈ l, index < y.oeStart) ∨
      ∃ pre e post, l = pre ++ e :: post ∧ extentSearchWalk index l p = some e ∧
        (∀ y ∈ pre, y.oeEnd < index) ∧ ∀ y ∈ post, index < y.oeStart
  | [], p, _, _ => .inl ⟨rfl, fun _ h => (by cases h)⟩
  | tmp :: rest, p, hs, hle => by
    have hrest := List.pairwise_cons.mp hs
    have htmp := hle tmp (by simp)
    by_cases h1 : index < tmp.oeStart
    · -- the walk stops before the first extent
      refine .inl ⟨by simp [extentSearchWalk, h1], ?_⟩
      intro y hy
      rcases List.mem_cons.mp hy with rfl | hy
      · exact h1
      · have := hrest.1 y hy
        omega
    · by_cases h2 : index > tmp.oeEnd
      · -- the walk goes right of `tmp` and carries it
        have hwalk : extentSearchWalk index (tmp :: rest) p = extentSearchWalk index rest (some tmp) := by
          simp [extentSearchWalk, h1, h2]
        rw [hwalk]
        rcases extentSearchWalk_spec rest (some tmp) hrest.2 (fun e he => hle e (by simp [he])) with
          ⟨heq, hall⟩ | ⟨pre, e, post, hsplit, heq, hpre, hpost⟩
        · exact .inr ⟨[], tmp, rest, rfl, heq, fun _ h => (by cases h), hall⟩
        · refine .inr ⟨tmp :: pre, e, post, by rw [hsplit]; rfl, heq, ?_, hpost⟩
          intro y hy
          rcases List.mem_cons.mp hy with rfl | hy
          · exact h2
          · exact hpre y hy
      · -- `tmp` holds `index`
        refine .inr ⟨[], tmp, rest, rfl, by simp [extentSearchWalk, h1, h2], fun _ h => (by cases h), ?_⟩
        intro y hy
        have := hrest.1 y hy
        omega

/-- The insertion walk puts an extent that overlaps none of a sorted list
at its place. -/
theorem extentInsertWalk_spec (e : OscExtent) (he : e.oeStart ≤ e.oeEnd) :
    ∀ (l : List OscExtent), Sorted l → (∀ y ∈ l, y.oeStart ≤ y.oeEnd) →
      (∀ y ∈ l, y.oeEnd < e.oeStart ∨ e.oeEnd < y.oeStart) →
      ∃ l', extentInsertWalk e l = some l' ∧ l'.Perm (e :: l) ∧ Sorted l'
  | [], _, _, _ => ⟨[e], rfl, List.Perm.refl _, List.pairwise_singleton _ _⟩
  | tmp :: rest, hs, hle, hap => by
    have hrest := List.pairwise_cons.mp hs
    have htmp := hle tmp (by simp)
    by_cases h1 : e.oeEnd < tmp.oeStart
    · -- in front of `tmp`
      refine ⟨e :: tmp :: rest, by simp [extentInsertWalk, h1], List.Perm.refl _, ?_⟩
      refine List.Pairwise.cons ?_ hs
      intro y hy
      rcases List.mem_cons.mp hy with rfl | hy
      · exact h1
      · have := hrest.1 y hy
        omega
    · have h2 : e.oeStart > tmp.oeEnd := by
        rcases hap tmp (by simp) with h | h
        · exact h
        · exact absurd h h1
      obtain ⟨l', hwalk, hperm, hsorted⟩ := extentInsertWalk_spec e he rest hrest.2
        (fun y hy => hle y (by simp [hy])) (fun y hy => hap y (by simp [hy]))
      refine ⟨tmp :: l', by simp [extentInsertWalk, h1, h2, hwalk], ?_, ?_⟩
      · exact (hperm.cons tmp).trans (List.Perm.swap e tmp rest)
      · refine List.Pairwise.cons ?_ hsorted
        intro y hy
        rcases List.mem_cons.mp (hperm.subset hy) with rfl | hy
        · exact h2
        · exact hrest.1 y hy

end Walks

/-! ## Frame lemmas -/

section Frame

variable {cli : ClientObd} {obj : OscObject}

theorem OscInv.startLe (h : OscInv cli obj) : ∀ e ∈ obj.ooRoot, e.oeStart ≤ e.oeEnd :=
  fun e he => (h.wf e he).startLe

/-- An extent written back in place of `x` with the same address keeps the
tree, if it stays between its neighbours and under a lock compatible with
theirs. -/
theorem OscInv.setExtent (h : OscInv cli obj) {pre post : List OscExtent} {x e : OscExtent}
    (hsplit : obj.ooRoot = pre ++ x :: post) (hid : e.oeId = x.oeId) (hwf : ExtentWF cli e)
    (hpre : ∀ a ∈ pre, a.oeEnd < e.oeStart) (hpost : ∀ b ∈ post, e.oeEnd < b.oeStart)
    (hlock : ∀ y ∈ pre ++ post, LockCompat e.oeDlmlock y.oeDlmlock) : OscInv cli (obj.setExtent e) := by
  have hnd := h.idsNodup
  have hroot := setExtent_split hnd hsplit hid
  have hs := h.sorted
  have hl := h.locks
  rw [hsplit] at hs hl hnd
  rw [List.pairwise_append, List.pairwise_cons] at hs hl
  constructor
  · -- sorted: the neighbours of `e` are those of `x`
    rw [hroot, List.pairwise_append, List.pairwise_cons]
    refine ⟨hs.1, ⟨hpost, hs.2.1.2⟩, ?_⟩
    intro a ha b hb
    rcases List.mem_cons.mp hb with rfl | hb
    · exact hpre a ha
    · exact hs.2.2 a ha b (by simp [hb])
  · rw [hroot, List.pairwise_append, List.pairwise_cons]
    refine ⟨hl.1, ⟨fun b hb => hlock b (by simp [hb]), hl.2.1.2⟩, ?_⟩
    intro a ha b hb
    rcases List.mem_cons.mp hb with rfl | hb
    · exact (hlock a (by simp [ha])).symm
    · exact hl.2.2 a ha b (by simp [hb])
  · rw [hroot]
    rw [List.map_append, List.map_cons] at hnd ⊢
    rw [hid]
    exact hnd
  · intro y hy
    rw [hroot] at hy
    rw [setExtent_ooNextId]
    rcases List.mem_append.mp hy with hy | hy
    · exact h.idsLt y (by rw [hsplit]; simp [hy])
    · rcases List.mem_cons.mp hy with rfl | hy
      · rw [hid]
        exact h.idsLt x (by rw [hsplit]; simp)
      · exact h.idsLt y (by rw [hsplit]; simp [hy])
  · intro y hy
    rw [hroot] at hy
    rcases List.mem_append.mp hy with hy | hy
    · exact h.wf y (by rw [hsplit]; simp [hy])
    · rcases List.mem_cons.mp hy with rfl | hy
      · exact hwf
      · exact h.wf y (by rw [hsplit]; simp [hy])

/-- Writing back an extent with the same start and lock, and an end still
before the extents after it. -/
theorem OscInv.setExtent_end (h : OscInv cli obj) {pre post : List OscExtent} {x e : OscExtent}
    (hsplit : obj.ooRoot = pre ++ x :: post) (hid : e.oeId = x.oeId) (hwf : ExtentWF cli e)
    (hstart : e.oeStart = x.oeStart) (hpost : ∀ b ∈ post, e.oeEnd < b.oeStart) (hlock : e.oeDlmlock = x.oeDlmlock) :
    OscInv cli (obj.setExtent e) := by
  have hs := h.sorted
  have hl := h.locks
  rw [hsplit, List.pairwise_append, List.pairwise_cons] at hs hl
  refine h.setExtent hsplit hid hwf ?_ hpost ?_
  · intro a ha
    rw [hstart]
    exact hs.2.2 a ha x (by simp)
  · intro y hy
    rw [hlock]
    rcases List.mem_append.mp hy with hy | hy
    · exact (hl.2.2 y hy x (by simp)).symm
    · exact hl.2.1.1 y hy

/-- Writing back an extent with the same place and lock. -/
theorem OscInv.setExtent_same (h : OscInv cli obj) {pre post : List OscExtent} {x e : OscExtent}
    (hsplit : obj.ooRoot = pre ++ x :: post) (hid : e.oeId = x.oeId) (hwf : ExtentWF cli e)
    (hstart : e.oeStart = x.oeStart) (hend : e.oeEnd = x.oeEnd) (hlock : e.oeDlmlock = x.oeDlmlock) :
    OscInv cli (obj.setExtent e) := by
  have hs := h.sorted
  rw [hsplit, List.pairwise_append, List.pairwise_cons] at hs
  refine h.setExtent_end hsplit hid hwf hstart ?_ hlock
  intro b hb
  rw [hend]
  exact hs.2.1.1 b hb

/-- Taking an extent out of the tree keeps it. -/
theorem OscInv.eraseExtent (h : OscInv cli obj) (id : Nat) : OscInv cli (obj.eraseExtent id) := by
  have hsub : (obj.eraseExtent id).ooRoot.Sublist obj.ooRoot := List.filter_sublist
  exact ⟨h.sorted.sublist hsub, h.locks.sublist hsub, h.idsNodup.sublist (hsub.map _),
    fun e he => h.idsLt e (hsub.subset he), fun e he => h.wf e (hsub.subset he)⟩

/-- Inserting at its place an extent that overlaps none of the tree, at the
next address, under a lock compatible with all of theirs. -/
theorem OscInv.insert (h : OscInv cli obj) {e : OscExtent} (hwf : ExtentWF cli e) (hid : e.oeId = obj.ooNextId)
    (hap : ∀ y ∈ obj.ooRoot, y.oeEnd < e.oeStart ∨ e.oeEnd < y.oeStart)
    (hlock : ∀ y ∈ obj.ooRoot, LockCompat e.oeDlmlock y.oeDlmlock) :
    ∃ obj', oscExtentInsert obj e = some obj' ∧ OscInv cli { obj' with ooNextId := obj'.ooNextId + 1 } := by
  obtain ⟨l', hwalk, hperm, hsorted⟩ :=
    extentInsertWalk_spec e hwf.startLe obj.ooRoot h.sorted h.startLe hap
  refine ⟨{ obj with ooRoot := l' }, by simp [oscExtentInsert, hwalk], ?_⟩
  have hmem : ∀ y, y ∈ l' ↔ y = e ∨ y ∈ obj.ooRoot := fun y => by
    rw [hperm.mem_iff, List.mem_cons]
  constructor
  · exact hsorted
  · refine (hperm.pairwise_iff fun {a b} hab => LockCompat.symm hab).mpr ?_
    exact List.Pairwise.cons hlock h.locks
  · rw [(hperm.map _).nodup_iff, List.map_cons, List.nodup_cons]
    refine ⟨fun hm => ?_, h.idsNodup⟩
    obtain ⟨y, hy, hyid⟩ := List.mem_map.mp hm
    have := h.idsLt y hy
    omega
  · intro y hy
    rcases (hmem y).mp hy with rfl | hy
    · show y.oeId < obj.ooNextId + 1
      omega
    · have := h.idsLt y hy
      show y.oeId < obj.ooNextId + 1
      omega
  · intro y hy
    rcases (hmem y).mp hy with rfl | hy
    · exact hwf
    · exact h.wf y hy

end Frame

end Lustre.Osc
