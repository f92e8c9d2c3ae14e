import Mathlib
import Lustre.Lib.Keyed
import Lustre.Osc.Cache.Spec

/-! # How the extent calls move grant

The grant of a tree is the sum of its extents' `oe_grants` (`treeGrants`);
`extentGrants` and `extentUsers` read the grant and the users at one
address, 0 where there is no extent. Each extent call works on one extent:
`osc_extent_find` and `osc_extent_expand` move to it what they take of the
caller's `*grants`, `osc_extent_release` gives back the taxes its merges
save, `__osc_extent_remove` drops it with its grant. None of them touches
an extent with users other than the one it works on: its merges take only
cached extents, which have none (`IdleFrame`). These are the facts the
grant accounting of the client rests on.
-/

namespace Lustre.Osc

/-- The grant the extents of a tree hold. -/
def treeGrants (obj : OscObject) : Nat := (obj.ooRoot.map (·.oeGrants)).sum

/-- A field of the extent at an address, or 0 where there is none. -/
def atId (f : OscExtent → Nat) (obj : OscObject) (id : Nat) : Nat :=
  Keyed.filed f (fun e => some e.oeId) obj.ooRoot id

/-- The grant held at an address. -/
def extentGrants (obj : OscObject) (id : Nat) : Nat := atId (·.oeGrants) obj id

/-- The users of the extent at an address. -/
def extentUsers (obj : OscObject) (id : Nat) : Nat := atId (·.oeUsers) obj id

/-! ## Reading and updating the tree -/

section Update

variable {f : OscExtent → Nat} {obj : OscObject} {pre post : List OscExtent} {x : OscExtent}

theorem filed_split (hnd : ((pre ++ x :: post).map (·.oeId)).Nodup) :
    Keyed.filed f (fun e => some e.oeId) (pre ++ x :: post) x.oeId = f x := by
  rw [Keyed.filed_append, Keyed.filed_cons, if_pos rfl,
    Keyed.filed_eq_zero f _ fun y hy => by simpa using ne_of_mem_pre hnd hy,
    Keyed.filed_eq_zero f _ fun y hy => by simpa using ne_of_mem_post hnd hy, Nat.add_zero, Nat.zero_add]

/-- An extent of the tree is the one at its address. -/
theorem atId_split (hnd : (obj.ooRoot.map (·.oeId)).Nodup) (hsplit : obj.ooRoot = pre ++ x :: post) :
    atId f obj x.oeId = f x := by
  unfold atId
  rw [hsplit] at hnd ⊢
  exact filed_split hnd

theorem atId_eq_zero {id : Nat} (h : ∀ e ∈ obj.ooRoot, e.oeId ≠ id) : atId f obj id = 0 :=
  Keyed.filed_eq_zero f _ fun e he => by simpa using h e he

@[simp] theorem setExtent_ids (e : OscExtent) : (obj.setExtent e).ooRoot.map (·.oeId) = obj.ooRoot.map (·.oeId) := by
  unfold OscObject.setExtent
  rw [List.map_map]
  apply List.map_congr_left
  intro y _
  by_cases hy : y.oeId = e.oeId
  · simp [hy]
  · simp [hy]

theorem atId_setExtent_ne (e : OscExtent) {i : Nat} (hi : i ≠ e.oeId) : atId f (obj.setExtent e) i = atId f obj i := by
  unfold atId OscObject.setExtent
  rw [Keyed.filed_map f _ _ (fun y => by by_cases hy : y.oeId = e.oeId <;> simp [hy])]
  apply Keyed.filed_congr
  intro y _ hy
  have hne : y.oeId ≠ e.oeId := fun h => hi (by simpa [h] using hy.symm)
  simp [hne]

theorem atId_setExtent_self (hnd : (obj.ooRoot.map (·.oeId)).Nodup) (hsplit : obj.ooRoot = pre ++ x :: post)
    {e : OscExtent} (he : e.oeId = x.oeId) : atId f (obj.setExtent e) x.oeId = f e := by
  have hsplit' := setExtent_split hnd hsplit he
  rw [← he]
  exact atId_split (by rw [setExtent_ids]; exact hnd) hsplit'

theorem atId_eraseExtent_ne {i j : Nat} (hi : i ≠ j) : atId f (obj.eraseExtent j) i = atId f obj i :=
  Keyed.filed_filter_of_keep f _ _ _ fun y hy => by simpa [Option.some.inj hy] using hi

@[simp] theorem atId_eraseExtent_self (j : Nat) : atId f (obj.eraseExtent j) j = 0 :=
  Keyed.filed_filter_of_drop f _ _ _ fun y hy => by simp [Option.some.inj hy]

theorem treeGrants_setExtent (hnd : (obj.ooRoot.map (·.oeId)).Nodup) (hsplit : obj.ooRoot = pre ++ x :: post)
    {e : OscExtent} (he : e.oeId = x.oeId) : treeGrants (obj.setExtent e) + x.oeGrants = treeGrants obj + e.oeGrants := by
  unfold treeGrants
  rw [setExtent_split hnd hsplit he, hsplit]
  simp only [List.map_append, List.map_cons, List.sum_append, List.sum_cons]
  omega

theorem treeGrants_eraseExtent (hnd : (obj.ooRoot.map (·.oeId)).Nodup) (hsplit : obj.ooRoot = pre ++ x :: post) :
    treeGrants (obj.eraseExtent x.oeId) + x.oeGrants = treeGrants obj := by
  unfold treeGrants
  rw [eraseExtent_split hnd hsplit, hsplit]
  simp only [List.map_append, List.map_cons, List.sum_append, List.sum_cons]
  omega

/-- The insertion walk puts the extent somewhere among the others. -/
theorem extentInsertWalk_perm (e : OscExtent) :
    ∀ {l l' : List OscExtent}, extentInsertWalk e l = some l' → l'.Perm (e :: l)
  | [], l', h => by
    simp only [extentInsertWalk, Option.some.injEq] at h
    rw [← h]
  | tmp :: rest, l', h => by
    unfold extentInsertWalk at h
    split_ifs at h with h1 h2
    · -- in front of `tmp`
      rw [← Option.some.inj h]
    · -- past `tmp`
      obtain ⟨l'', hwalk, rfl⟩ := Option.map_eq_some_iff.mp h
      exact ((extentInsertWalk_perm e hwalk).cons tmp).trans (List.Perm.swap e tmp rest)

theorem oscExtentInsert_perm {e : OscExtent} {obj' : OscObject} (h : oscExtentInsert obj e = some obj') :
    obj'.ooRoot.Perm (e :: obj.ooRoot) := by
  obtain ⟨l', hwalk, rfl⟩ := Option.map_eq_some_iff.mp h
  exact extentInsertWalk_perm e hwalk

theorem atId_of_perm {obj' : OscObject} {e : OscExtent} (hp : obj'.ooRoot.Perm (e :: obj.ooRoot)) (i : Nat) :
    atId f obj' i = (if e.oeId = i then f e else 0) + atId f obj i := by
  unfold atId
  rw [Keyed.filed_perm f _ hp, Keyed.filed_cons]
  simp

theorem treeGrants_of_perm {obj' : OscObject} {e : OscExtent} (hp : obj'.ooRoot.Perm (e :: obj.ooRoot)) :
    treeGrants obj' = e.oeGrants + treeGrants obj := by
  unfold treeGrants
  rw [(hp.map _).sum_eq, List.map_cons, List.sum_cons]

end Update

/-! ## Frames -/

/-- `obj'` differs from `obj` at `id`, and elsewhere only by extents without
users that it dropped. -/
structure IdleFrame (obj obj' : OscObject) (id : Nat) : Prop where
  users : ∀ i, i ≠ id → extentUsers obj' i = extentUsers obj i
  grants : ∀ i, i ≠ id → extentGrants obj' i = extentGrants obj i ∨ extentUsers obj i = 0

section Frame

variable {obj obj₁ obj₂ : OscObject} {id : Nat}

theorem IdleFrame.refl (obj : OscObject) (id : Nat) : IdleFrame obj obj id :=
  ⟨fun _ _ => rfl, fun _ _ => .inl rfl⟩

theorem IdleFrame.trans (h₁ : IdleFrame obj obj₁ id) (h₂ : IdleFrame obj₁ obj₂ id) : IdleFrame obj obj₂ id where
  users i hi := (h₂.users i hi).trans (h₁.users i hi)
  grants i hi := by
    rcases h₂.grants i hi with h | h
    · rcases h₁.grants i hi with h' | h'
      · exact .inl (h.trans h')
      · exact .inr h'
    · exact .inr ((h₁.users i hi).symm.trans h)

theorem IdleFrame.setExtent (e : OscExtent) : IdleFrame obj (obj.setExtent e) e.oeId where
  users _ hi := atId_setExtent_ne e hi
  grants _ hi := .inl (atId_setExtent_ne e hi)

/-- Dropping an extent without users. -/
theorem IdleFrame.eraseIdle {j : Nat} (hu : extentUsers obj j = 0) :
    IdleFrame obj (obj.eraseExtent j) id where
  users i _ := by
    by_cases hij : i = j
    · rw [hij, hu]
      exact atId_eraseExtent_self j
    · exact atId_eraseExtent_ne hij
  grants i _ := by
    by_cases hij : i = j
    · exact .inr (hij ▸ hu)
    · exact .inl (atId_eraseExtent_ne hij)

/-- Dropping the extent at the address itself. -/
theorem IdleFrame.eraseExtent (j : Nat) : IdleFrame obj (obj.eraseExtent j) j where
  users _ hi := atId_eraseExtent_ne hi
  grants _ hi := .inl (atId_eraseExtent_ne hi)

/-- Putting in an extent at a new address. -/
theorem IdleFrame.ofPerm {obj' : OscObject} {e : OscExtent} (hp : obj'.ooRoot.Perm (e :: obj.ooRoot)) :
    IdleFrame obj obj' e.oeId where
  users i hi := by
    unfold extentUsers
    rw [atId_of_perm hp, if_neg (Ne.symm hi), Nat.zero_add]
  grants i hi := by
    unfold extentGrants
    rw [atId_of_perm hp, if_neg (Ne.symm hi), Nat.zero_add]
    exact .inl rfl

end Frame

/-! ## Merging -/

section Merge

variable {cli : ClientObd} {obj obj' : OscObject} {pre post : List OscExtent} {cur cur' : OscExtent}

/-- What `osc_extent_merge` can return for a victim: the two joined, with
their grant less a tax, or `cur` as it was. -/
theorem oscExtentMerge_some {v : OscExtent} {rc : Int} (h : oscExtentMerge cli cur (some v) = some (rc, cur')) :
    (rc = 0 ∧ (v.oeState = .inv ∨ v.oeState = .cache) ∧ cur' = { cur with
        oeStart := min cur.oeStart v.oeStart
        oeEnd := max cur.oeEnd v.oeEnd
        oeGrants := cur.oeGrants + v.oeGrants - cli.clGrantExtentTax }) ∨
      (rc ≠ 0 ∧ cur' = cur) := by
  unfold oscExtentMerge at h
  dsimp only at h
  split_ifs at h with h0 h1 <;> simp only [Option.some.injEq, Prod.mk.injEq] at h
  -- each refusal: a nonzero code, and `cur` as it was
  all_goals first
    | exact .inr ⟨by rw [← h.1]; decide, h.2.symm⟩
    | refine .inl ⟨h.1.symm, ?_, h.2.symm⟩
      rcases not_and_or.mp h1 with h | h
      · exact .inl (not_not.mp h)
      · exact .inr (not_not.mp (not_or.mp h).1)

/-- What a merge leaves, for the facts about grant. -/
structure MergeLedger (cli : ClientObd) (obj obj' : OscObject) (cur cur' : OscExtent) (rc : Int) : Prop where
  id : cur'.oeId = cur.oeId
  users : cur'.oeUsers = cur.oeUsers
  grows : cur.oeGrants ≤ cur'.oeGrants
  nodup : (obj'.ooRoot.map (·.oeId)).Nodup
  split : ∃ pre' post', obj'.ooRoot = pre' ++ cur' :: post'
  others : ∀ y ∈ obj'.ooRoot, y.oeId ≠ cur.oeId → y ∈ obj.ooRoot
  frame : IdleFrame obj obj' cur.oeId
  tax : treeGrants obj' + (if rc = 0 then cli.clGrantExtentTax else 0) = treeGrants obj

/-- Nothing merged. -/
theorem MergeLedger.same (hnd : (obj.ooRoot.map (·.oeId)).Nodup) (hsplit : obj.ooRoot = pre ++ cur :: post)
    {rc : Int} (hrc : rc ≠ 0) : MergeLedger cli obj obj cur cur rc where
  id := rfl
  users := rfl
  grows := le_refl _
  nodup := hnd
  split := ⟨pre, post, hsplit⟩
  others _ hy _ := hy
  frame := IdleFrame.refl obj cur.oeId
  tax := by rw [if_neg hrc, Nat.add_zero]

theorem MergeLedger.grants_at {rc : Int} (h : MergeLedger cli obj obj' cur cur' rc) :
    extentGrants obj' cur.oeId = cur'.oeGrants := by
  obtain ⟨pre', post', hs⟩ := h.split
  unfold extentGrants
  rw [← h.id]
  exact atId_split h.nodup hs

theorem MergeLedger.users_at {rc : Int} (h : MergeLedger cli obj obj' cur cur' rc) :
    extentUsers obj' cur.oeId = cur.oeUsers := by
  obtain ⟨pre', post', hs⟩ := h.split
  unfold extentUsers
  rw [← h.id, ← h.users]
  exact atId_split h.nodup hs

/-- `osc_extent_merge` of an extent of the tree with a victim of the tree:
a victim it takes is cached, so without users, and holds at least its tax,
which is what the tree's grant loses. -/
theorem oscExtentMergeIn_ledger (hnd : (obj.ooRoot.map (·.oeId)).Nodup) (hsplit : obj.ooRoot = pre ++ cur :: post)
    {victim : Option OscExtent} (hv : ∀ v, victim = some v → v ∈ pre ++ post ∧ ExtentWF cli v) {rc : Int}
    (heq : oscExtentMergeIn cli obj cur victim = some (rc, cur', obj')) : MergeLedger cli obj obj' cur cur' rc := by
  cases victim with
  | none =>
    -- no neighbour: `-EINVAL`, nothing merged
    unfold oscExtentMergeIn oscExtentMerge at heq
    dsimp only at heq
    split_ifs at heq <;> simp only [Option.map_some, Option.map_none, Option.some.injEq, Prod.mk.injEq,
      reduceCtorEq] at heq
    obtain ⟨rfl, rfl, rfl⟩ := heq
    exact MergeLedger.same hnd hsplit (by decide : (-einval : Int) ≠ 0)
  | some v =>
    obtain ⟨hvmem, hwv⟩ := hv v rfl
    have hroot : v ∈ obj.ooRoot := by
      rw [hsplit]
      rcases List.mem_append.mp hvmem with h | h
      · exact List.mem_append_left _ h
      · exact List.mem_append_right _ (List.mem_cons_of_mem _ h)
    have hne : v.oeId ≠ cur.oeId := by
      rcases List.mem_append.mp hvmem with h | h
      · exact ne_of_mem_pre (hsplit ▸ hnd) h
      · exact ne_of_mem_post (hsplit ▸ hnd) h
    unfold oscExtentMergeIn at heq
    obtain ⟨⟨rc₀, cur₀⟩, hm, hres⟩ := Option.map_eq_some_iff.mp heq
    rcases oscExtentMerge_some hm with ⟨rfl, hvs, rfl⟩ | ⟨hrc, rfl⟩
    · -- the victim joins `cur` and leaves the tree
      simp only [↓reduceIte, Prod.mk.injEq] at hres
      obtain ⟨rfl, rfl, rfl⟩ := hres
      have hvc : v.oeState = .cache := hvs.resolve_left hwv.notInv
      have htax : cli.clGrantExtentTax ≤ v.oeGrants := by
        have := hwv.charged (.inr hvc)
        unfold Charged at this
        omega
      obtain ⟨vpre, vpost, hvsplit⟩ := List.append_of_mem hroot
      have hvu : extentUsers obj v.oeId = 0 := by
        unfold extentUsers
        rw [atId_split hnd hvsplit]
        exact hwv.users_eq_zero hvc
      -- `cur` between the others that stay
      have hsub : (obj.eraseExtent v.oeId).ooRoot = pre.filter (·.oeId ≠ v.oeId) ++ cur :: post.filter (·.oeId ≠ v.oeId) := by
        unfold OscObject.eraseExtent
        rw [hsplit, List.filter_append, List.filter_cons_of_pos (by simpa using hne.symm)]
      have hnd₁ : ((obj.eraseExtent v.oeId).ooRoot.map (·.oeId)).Nodup :=
        hnd.sublist (List.filter_sublist.map _)
      have hT₁ := treeGrants_eraseExtent hnd hvsplit
      have hT₂ := treeGrants_setExtent hnd₁ hsub (e := { cur with
        oeStart := min cur.oeStart v.oeStart
        oeEnd := max cur.oeEnd v.oeEnd
        oeGrants := cur.oeGrants + v.oeGrants - cli.clGrantExtentTax }) rfl
      exact {
        id := rfl
        users := rfl
        grows := by dsimp only; omega
        nodup := by rw [setExtent_ids]; exact hnd₁
        split := ⟨_, _, setExtent_split hnd₁ hsub rfl⟩
        others := fun y hy hyc => by
          have hy' : y ∈ (obj.eraseExtent v.oeId).ooRoot := by
            unfold OscObject.setExtent at hy
            obtain ⟨z, hz, hzy⟩ := List.mem_map.mp hy
            by_cases hzc : z.oeId = cur.oeId
            · rw [if_pos hzc] at hzy
              exact absurd (hzy ▸ rfl) hyc
            · rw [if_neg hzc] at hzy
              exact hzy ▸ hz
          exact List.mem_of_mem_filter hy'
        frame := (IdleFrame.eraseIdle hvu).trans (IdleFrame.setExtent _)
        tax := by
          rw [if_pos rfl]
          dsimp only at hT₂
          omega }
    · -- refused: the tree is as it was
      simp only [if_neg hrc, Prod.mk.injEq] at hres
      obtain ⟨rfl, rfl, rfl⟩ := hres
      exact MergeLedger.same hnd hsplit hrc

end Merge

/-! ## The calls -/

/-- What an extent call that works on the extent at `id` does to the grant:
it touches no other extent with users, and raises the grant at `id` by at
least `gain`. -/
structure Moves (obj obj' : OscObject) (id gain : Nat) : Prop extends IdleFrame obj obj' id where
  gain : extentGrants obj id + gain ≤ extentGrants obj' id

theorem Moves.refl (obj : OscObject) (id : Nat) : Moves obj obj id 0 :=
  { IdleFrame.refl obj id with gain := le_refl _ }

theorem oscExtentHold_eq {x y : OscExtent} (h : oscExtentHold x = some y) :
    y = { x with oeState := .active, oeUsers := x.oeUsers + 1 } := by
  unfold oscExtentHold at h
  split_ifs at h
  exact (Option.some.inj h).symm

theorem mem_setExtent_ne {obj : OscObject} {e y : OscExtent} (hy : y ∈ (obj.setExtent e).ooRoot)
    (hne : y.oeId ≠ e.oeId) : y ∈ obj.ooRoot := by
  obtain ⟨z, hz, hzy⟩ := List.mem_map.mp hy
  by_cases hze : z.oeId = e.oeId
  · rw [if_pos hze] at hzy
    exact absurd (congrArg OscExtent.oeId hzy) (Ne.symm hne)
  · rw [if_neg hze] at hzy
    exact hzy ▸ hz

section Calls

variable {cli : ClientObd} {obj obj' : OscObject} {pre post : List OscExtent} {x : OscExtent}

/-- An extent of the tree written back with `d` more grant. -/
theorem setExtent_ledger (hnd : (obj.ooRoot.map (·.oeId)).Nodup) (hsplit : obj.ooRoot = pre ++ x :: post)
    {e : OscExtent} (hid : e.oeId = x.oeId) {d : Nat} (hg : e.oeGrants = x.oeGrants + d) :
    Moves obj (obj.setExtent e) x.oeId d ∧ extentUsers (obj.setExtent e) x.oeId = e.oeUsers ∧
      extentUsers obj x.oeId = x.oeUsers ∧ treeGrants (obj.setExtent e) = treeGrants obj + d := by
  have hG : extentGrants (obj.setExtent e) x.oeId = extentGrants obj x.oeId + d := by
    unfold extentGrants
    rw [atId_setExtent_self hnd hsplit hid, atId_split hnd hsplit, hg]
  have hT := treeGrants_setExtent hnd hsplit hid
  refine ⟨{ hid ▸ IdleFrame.setExtent e with gain := by rw [hG] },
    atId_setExtent_self hnd hsplit hid, atId_split hnd hsplit, by omega⟩

/-- `osc_extent_hold` of an extent of the tree: one user more, and the grant
as it was. -/
theorem hold_ledger (hnd : (obj.ooRoot.map (·.oeId)).Nodup) (hsplit : obj.ooRoot = pre ++ x :: post) {y : OscExtent}
    (hy : oscExtentHold x = some y) :
    y.oeId = x.oeId ∧ Moves obj (obj.setExtent y) x.oeId 0 ∧
      extentUsers (obj.setExtent y) x.oeId = extentUsers obj x.oeId + 1 ∧
      treeGrants (obj.setExtent y) = treeGrants obj := by
  have hy' := oscExtentHold_eq hy
  have hid : y.oeId = x.oeId := by rw [hy']
  obtain ⟨hmv, hu', hu, hT⟩ := setExtent_ledger hnd hsplit hid (d := 0) (by rw [hy']; rfl)
  refine ⟨hid, hmv, ?_, hT⟩
  rw [hu', hu, hy']

/-- What `osc_extent_find` does to the grant: when it returns an extent, it
moved there what it took of `*grants` and held it once more; otherwise it
changed nothing. -/
def FindLedger (obj obj' : OscObject) (grants : Nat) : FindResult → Nat → Prop
  | .found id, g' => Moves obj obj' id (grants - g') ∧ extentUsers obj' id = extentUsers obj id + 1 ∧
      treeGrants obj' + g' = treeGrants obj + grants
  | _, g' => g' = grants ∧ obj' = obj

/-- The end of `osc_extent_find`, from the extent the search stopped at. -/
theorem findFinish_ledger (h : OscInv cli obj) {cur : OscExtent} {c grants : Nat} (hcur : NewExtent cli cur c)
    (hid : cur.oeId = obj.ooNextId) (hlock : ∀ e ∈ obj.ooRoot, LockCompat cur.oeDlmlock e.oeDlmlock)
    (hcg : cur.oeGrants = chunksize cli + cli.clGrantExtentTax) (hcu : cur.oeUsers = 0)
    (hg : chunksize cli + cli.clGrantExtentTax ≤ grants) {r : FindResult} {g' : Nat}
    (heq : findFinish cli obj grants cur (findScan cli cur c (findScanFrom obj cur.oeStart)) = some (r, g', obj')) :
    FindLedger obj obj' grants r g' := by
  have hnd := h.idsNodup
  obtain ⟨pre, hroot, hpre, htail⟩ := findScanFrom_spec h cur.oeStart
  have hL : ∀ x ∈ findScanFrom obj cur.oeStart, ExtentWF cli x ∧ LockCompat cur.oeDlmlock x.oeDlmlock :=
    fun x hx => ⟨h.wf x (by rw [hroot]; exact List.mem_append_right _ hx), hlock x (by rw [hroot]; exact List.mem_append_right _ hx)⟩
  have hok := findScan_ok hcur _ hL htail
  generalize findScan cli cur c (findScanFrom obj cur.oeStart) = sc at hok heq
  cases sc with
  | lbug => exact hok.elim
  | conflict x =>
    simp only [findFinish, Option.some.injEq, Prod.mk.injEq] at heq
    obtain ⟨rfl, rfl, rfl⟩ := heq
    exact ⟨rfl, rfl⟩
  | found x =>
    -- the extent that holds the page is held once more
    obtain ⟨hhead, -⟩ := hok
    obtain ⟨post, hpost⟩ := List.head?_eq_some_iff.mp hhead
    have hsplit : obj.ooRoot = pre ++ x :: post := by rw [hroot, hpost]
    obtain ⟨y, hy, hres⟩ := Option.map_eq_some_iff.mp heq
    simp only [Prod.mk.injEq] at hres
    obtain ⟨rfl, rfl, rfl⟩ := hres
    obtain ⟨hyid, hmv, hu, hT⟩ := hold_ledger hnd hsplit hy
    rw [hyid]
    exact ⟨by rw [Nat.sub_self]; exact hmv, hu, by rw [hT]⟩
  | merged x x' =>
    -- the new extent went onto the end of `x`: a chunk more of grant there
    obtain ⟨hhead, -, -, hmerge⟩ := hok
    obtain ⟨post, hpost⟩ := List.head?_eq_some_iff.mp hhead
    have hsplit : obj.ooRoot = pre ++ x :: post := by rw [hroot, hpost]
    have hx' : x' = { x with
        oeStart := min x.oeStart cur.oeStart
        oeEnd := max x.oeEnd cur.oeEnd
        oeGrants := x.oeGrants + cur.oeGrants - cli.clGrantExtentTax } := by
      rcases oscExtentMerge_some hmerge with ⟨-, -, hx'⟩ | ⟨hrc, -⟩
      · exact hx'
      · exact absurd rfl hrc
    have hxid : x'.oeId = x.oeId := by rw [hx']
    have hxg : x'.oeGrants = x.oeGrants + chunksize cli := by
      rw [hx']
      dsimp only
      omega
    dsimp only [findFinish] at heq
    rw [if_neg (by omega)] at heq
    -- then onto the extent after it, which gives back a tax
    have hsplit₁ := setExtent_split hnd hsplit hxid
    have hnd₁ : ((obj.setExtent x').ooRoot.map (·.oeId)).Nodup := by rw [setExtent_ids]; exact hnd
    have hv : ∀ v, nextExtent (obj.setExtent x') x' = some v → v ∈ pre ++ post ∧ ExtentWF cli v := by
      intro v hv
      rw [nextExtent_split hnd₁ hsplit₁] at hv
      have hvp : v ∈ post := List.mem_of_mem_head? hv
      exact ⟨List.mem_append_right _ hvp, h.wf v (by rw [hsplit]; simp [hvp])⟩
    split at heq
    · exact absurd heq (by simp)
    rename_i rc x₂ obj₂ hm₂
    have hml := oscExtentMergeIn_ledger hnd₁ hsplit₁ hv hm₂
    obtain ⟨y, hy, hres⟩ := Option.map_eq_some_iff.mp heq
    simp only [Prod.mk.injEq] at hres
    obtain ⟨rfl, rfl, rfl⟩ := hres
    obtain ⟨pre₂, post₂, hsplit₂⟩ := hml.split
    obtain ⟨hyid, hmv, hu, hT⟩ := hold_ledger hml.nodup hsplit₂ hy
    have hx₂ : x₂.oeId = x.oeId := hml.id.trans hxid
    have hT₁ := treeGrants_setExtent hnd hsplit hxid
    have hT₂ := hml.tax
    have hG₂ : extentGrants obj₂ x.oeId = x₂.oeGrants := by
      unfold extentGrants
      rw [← hx₂]
      exact atId_split hml.nodup hsplit₂
    have hG : extentGrants obj x.oeId = x.oeGrants := atId_split hnd hsplit
    have hgrow := hml.grows
    have hgain := hmv.gain
    rw [hyid, hx₂]
    rw [hx₂] at hmv hu hgain
    have hframe : IdleFrame obj (obj₂.setExtent y) x.oeId :=
      ((hxid ▸ IdleFrame.setExtent x').trans (hxid ▸ hml.frame)).trans hmv.toIdleFrame
    refine ⟨⟨hframe, ?_⟩, ?_, ?_⟩
    · rw [hG]
      rw [hG₂] at hgain
      split_ifs <;> omega
    · have hU₂ : extentUsers obj₂ x.oeId = x.oeUsers := by
        unfold extentUsers
        rw [← hx₂, atId_split hml.nodup hsplit₂, hml.users, hx']
      have hU : extentUsers obj x.oeId = x.oeUsers := atId_split hnd hsplit
      rw [hu, hU₂, hU]
    · rw [hT]
      split_ifs at hT₂ ⊢ <;> omega
  | stop =>
    -- nothing holds the page: the new extent goes in, held, with its grant
    simp only [findFinish, oscExtentHold, or_true, if_true] at heq
    obtain ⟨obj₁, hins, hres⟩ := Option.map_eq_some_iff.mp heq
    simp only [Prod.mk.injEq] at hres
    obtain ⟨rfl, rfl, rfl⟩ := hres
    generalize he : ({ cur with oeState := .active, oeUsers := cur.oeUsers + 1 } : OscExtent) = e at hins
    have hp : ({ obj₁ with ooNextId := obj₁.ooNextId + 1 } : OscObject).ooRoot.Perm (e :: obj.ooRoot) :=
      @oscExtentInsert_perm obj e obj₁ hins
    have heid : e.oeId = cur.oeId := by rw [← he]
    have heg : e.oeGrants = cur.oeGrants := by rw [← he]
    have heu : e.oeUsers = cur.oeUsers + 1 := by rw [← he]
    have hfresh : ∀ y ∈ obj.ooRoot, y.oeId ≠ cur.oeId := fun y hy => by
      have := h.idsLt y hy
      omega
    have hU : extentUsers obj cur.oeId = 0 := atId_eq_zero hfresh
    have hG : extentGrants obj cur.oeId = 0 := atId_eq_zero hfresh
    have hG' : extentGrants { obj₁ with ooNextId := obj₁.ooNextId + 1 } cur.oeId = cur.oeGrants := by
      unfold extentGrants
      rw [atId_of_perm hp, if_pos heid, heg, show atId (·.oeGrants) obj cur.oeId = 0 from hG, Nat.add_zero]
    have hU' : extentUsers { obj₁ with ooNextId := obj₁.ooNextId + 1 } cur.oeId = cur.oeUsers + 1 := by
      unfold extentUsers
      rw [atId_of_perm hp, if_pos heid, heu, show atId (·.oeUsers) obj cur.oeId = 0 from hU, Nat.add_zero]
    have hT := treeGrants_of_perm hp
    refine ⟨⟨heid ▸ IdleFrame.ofPerm hp, ?_⟩, ?_, ?_⟩
    · rw [hG, hG']
      omega
    · rw [hU, hU', hcu]
    · rw [hT, heg]
      omega

/-- `osc_extent_find` for a page its lock covers, with the grant a new
extent takes, under a lock compatible with those of the tree. -/
theorem oscExtentFind_ledger (hcfg : ClientConfig cli) (h : OscInv cli obj) {index grants : Nat} {olck : OscLock}
    {allocOk : Bool} (hs : olck.cldStart ≤ index) (he : index ≤ olck.cldEnd)
    (hg : chunksize cli + cli.clGrantExtentTax ≤ grants) (hlock : ∀ e ∈ obj.ooRoot, LockCompat olck e.oeDlmlock)
    {r : FindResult} {g' : Nat} (heq : oscExtentFind cli obj index grants olck allocOk = some (r, g', obj')) :
    FindLedger obj obj' grants r g' := by
  cases allocOk with
  | false =>
    simp only [oscExtentFind] at heq
    obtain ⟨rfl, rfl, rfl⟩ := heq
    exact ⟨rfl, rfl⟩
  | true =>
    unfold oscExtentFind at heq
    dsimp only at heq
    rw [if_neg (show ¬ ¬ true = true from not_not.mpr rfl), if_neg (Nat.not_lt.mpr hcfg.chunkbits)] at heq
    by_cases hmod : cli.clMaxPagesPerRpc % 2 ^ ppcBits cli ≠ 0
    · -- `-EINVAL`: nothing changes
      simp only [if_pos hmod, Option.some.injEq, Prod.mk.injEq] at heq
      obtain ⟨rfl, rfl, rfl⟩ := heq
      exact ⟨rfl, rfl⟩
    rw [if_neg hmod, if_neg (Nat.pos_iff_ne_zero.mp hcfg.maxPages), if_neg (Nat.not_lt.mpr hg)] at heq
    obtain ⟨hcur, -, -⟩ := @findNewExtent_spec cli obj.ooNextId index olck hcfg (not_not.mp hmod) hs he
    rw [if_neg (not_not.mpr (findNewExtent_window hcur))] at heq
    exact findFinish_ledger h hcur rfl hlock rfl rfl hg heq

/-- `osc_extent_expand` of an extent of the tree: a chunk of `*grants` more
at that extent, or nothing. -/
theorem oscExtentExpand_ledger (h : OscInv cli obj) (hx : x ∈ obj.ooRoot) {index grants : Nat} {rc : Int}
    {g' : Nat} (heq : oscExtentExpand cli obj x.oeId index grants = some (rc, g', obj')) :
    Moves obj obj' x.oeId (grants - g') ∧ extentUsers obj' x.oeId = extentUsers obj x.oeId ∧
      treeGrants obj' + g' = treeGrants obj + grants ∧ (rc ≠ 0 → g' = grants) := by
  obtain ⟨pre, post, hsplit⟩ := List.append_of_mem hx
  have hnd := h.idsNodup
  unfold oscExtentExpand at heq
  rw [lookupExtent_split hnd hsplit] at heq
  dsimp only at heq
  split_ifs at heq with h1 h2 h3 h4 h5 h6 h7 <;> simp only [Option.some.injEq, Prod.mk.injEq] at heq
  -- a refusal, or a page already in the last chunk: nothing changes
  all_goals first
    | (obtain ⟨-, rfl, rfl⟩ := heq
       exact ⟨by rw [Nat.sub_self]; exact Moves.refl obj _, rfl, rfl, fun _ => rfl⟩)
    | skip
  -- the extent grows by a chunk, and takes a chunk of grant
  obtain ⟨rfl, rfl, rfl⟩ := heq
  obtain ⟨hmv, hu', hu, hT⟩ := setExtent_ledger hnd hsplit (d := chunksize cli) (e := { x with
      oeEnd := min x.oeMaxEnd ((index / 2 ^ ppcBits cli + 1) * 2 ^ ppcBits cli - 1)
      oeGrants := x.oeGrants + chunksize cli }) rfl rfl
  refine ⟨?_, by rw [hu', hu], by omega, fun h0 => absurd rfl h0⟩
  rw [show grants - (grants - chunksize cli) = chunksize cli by omega]
  exact hmv

/-- `osc_extent_release` of an extent of the tree: one user less, and the
taxes its merges save leave the tree; the grant at the extent does not
drop. -/
theorem oscExtentRelease_ledger (h : OscInv cli obj) (hx : x ∈ obj.ooRoot) {grant : Nat}
    (heq : oscExtentRelease cli obj x.oeId = some (grant, obj')) :
    Moves obj obj' x.oeId 0 ∧ extentUsers obj' x.oeId + 1 = extentUsers obj x.oeId ∧
      treeGrants obj' + grant = treeGrants obj := by
  obtain ⟨pre, post, hsplit⟩ := List.append_of_mem hx
  have hnd := h.idsNodup
  unfold oscExtentRelease at heq
  rw [lookupExtent_split hnd hsplit] at heq
  dsimp only at heq
  split_ifs at heq with h0 h1 h2 h3 h4 h5 <;> try simp only [reduceCtorEq] at heq
  · -- still in use
    simp only [Option.some.injEq, Prod.mk.injEq] at heq
    obtain ⟨rfl, rfl⟩ := heq
    obtain ⟨hmv, hu', hu, hT⟩ := setExtent_ledger hnd hsplit (e := { x with oeUsers := x.oeUsers - 1 }) (d := 0) rfl rfl
    refine ⟨hmv, ?_, by rw [hT]; rfl⟩
    rw [hu', hu]
    dsimp only
    omega
  · -- handed to the truncate that waits for it
    simp only [Option.some.injEq, Prod.mk.injEq] at heq
    obtain ⟨rfl, rfl⟩ := heq
    obtain ⟨hmv, hu', hu, hT⟩ := setExtent_ledger hnd hsplit
      (e := { x with oeUsers := x.oeUsers - 1, oeState := .trunc, oeTruncPending := false }) (d := 0) rfl rfl
    refine ⟨hmv, ?_, by rw [hT]; rfl⟩
    rw [hu', hu]
    dsimp only
    omega
  · -- the last user left: cached, then merged with both neighbours
    split at heq
    · exact absurd heq (by simp)
    rename_i rc₁ x₁ obj₂ hm₁
    split at heq
    · exact absurd heq (by simp)
    rename_i rc₂ x₂ obj₃ hm₂
    simp only [Option.some.injEq, Prod.mk.injEq] at heq
    obtain ⟨rfl, rfl⟩ := heq
    generalize hxc : ({ x with oeUsers := x.oeUsers - 1, oeState := .cache } : OscExtent) = xc at hm₁
    have hid : xc.oeId = x.oeId := by rw [← hxc]
    obtain ⟨hmv, hu', hu, hT⟩ := setExtent_ledger hnd hsplit hid (d := 0) (by rw [← hxc]; rfl)
    have hsplit₁ := setExtent_split hnd hsplit hid
    have hnd₁ : ((obj.setExtent xc).ooRoot.map (·.oeId)).Nodup := by rw [setExtent_ids]; exact hnd
    -- the one before it is an extent of the tree
    have hv₁ : ∀ v, prevExtent (obj.setExtent xc) xc = some v → v ∈ pre ++ post ∧ ExtentWF cli v := by
      intro v hv
      rw [prevExtent_split hnd₁ hsplit₁] at hv
      have hvp : v ∈ pre := List.mem_of_getLast? hv
      exact ⟨List.mem_append_left _ hvp, h.wf v (by rw [hsplit]; simp [hvp])⟩
    have hml₁ := oscExtentMergeIn_ledger hnd₁ hsplit₁ hv₁ hm₁
    obtain ⟨pre₂, post₂, hsplit₂⟩ := hml₁.split
    -- and so is the one after it
    have hv₂ : ∀ v, nextExtent obj₂ x₁ = some v → v ∈ pre₂ ++ post₂ ∧ ExtentWF cli v := by
      intro v hv
      rw [nextExtent_split hml₁.nodup hsplit₂] at hv
      have hvp : v ∈ post₂ := List.mem_of_mem_head? hv
      have hne : v.oeId ≠ xc.oeId := hml₁.id ▸ ne_of_mem_post (hsplit₂ ▸ hml₁.nodup) hvp
      have hv₁ : v ∈ (obj.setExtent xc).ooRoot := hml₁.others v (by rw [hsplit₂]; simp [hvp]) hne
      exact ⟨List.mem_append_right _ hvp, h.wf v (mem_setExtent_ne hv₁ hne)⟩
    have hml₂ := oscExtentMergeIn_ledger hml₁.nodup hsplit₂ hv₂ hm₂
    have hx₁ : x₁.oeId = x.oeId := hml₁.id.trans hid
    have hframe : IdleFrame obj obj₃ x.oeId :=
      (hmv.toIdleFrame.trans (hid ▸ hml₁.frame)).trans (hx₁ ▸ hml₂.frame)
    have hG := hml₂.grants_at
    have hG₀ : extentGrants obj x.oeId = x.oeGrants := atId_split hnd hsplit
    have hU := hml₂.users_at
    have hT₁ := hml₁.tax
    have hT₂ := hml₂.tax
    have hg₁ := hml₁.grows
    have hg₂ := hml₂.grows
    rw [hx₁] at hG hU
    refine ⟨⟨hframe, ?_⟩, ?_, ?_⟩
    · rw [hG, hG₀]
      rw [← hxc] at hg₁
      dsimp only at hg₁
      omega
    · rw [hU, hml₁.users, hu, ← hxc]
      dsimp only
      omega
    · rw [hT] at hT₁
      split_ifs at hT₁ hT₂ ⊢ <;> omega

end Calls

end Lustre.Osc
