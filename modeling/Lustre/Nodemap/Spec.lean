import Mathlib
import Lustre.Lib.Run
import Lustre.Nodemap

/-! # The two trees of a nodemap hold one bijection

For each id type the client-to-fs and fs-to-client trees hold the same
records, with no client id and no filesystem id twice (`TreesInv`). Then the
two trees answer as a partial bijection between client ids and filesystem ids
(`TreesInv.toPEquiv`). Every add and delete keeps the invariant, so it holds
after every run of id map calls (`nodemap_idmap_run_inv`).

An add that fails leaves the trees as they were, except on one path: the old
map that shares an id with the new one has left the trees, and then the index
update fails; the helper returns that error without the old map or the new
one.
-/

namespace Lustre.Nodemap

/-! ## Searching a tree -/

section Search

variable {key : LuIdmap → UInt32} {id : UInt32} {tree t t' : List LuIdmap} {x : LuIdmap}

theorem rbSearch_eq_some (h : rbSearch key id tree = some x) : x ∈ tree ∧ key x = id := by
  have hmem := List.mem_of_find?_eq_some h
  have hkey := List.find?_some h
  exact ⟨hmem, by simpa using hkey⟩

theorem rbSearch_eq_none (h : rbSearch key id tree = none) : ∀ y ∈ tree, key y ≠ id := by
  intro y hy hkey
  have := List.find?_eq_none.mp h y hy
  simp [hkey] at this

theorem rbSearch_eq_none_of (h : ∀ y ∈ tree, key y ≠ id) : rbSearch key id tree = none := by
  apply List.find?_eq_none.mpr
  intro y hy
  simpa using h y hy

/-- In a tree without a key twice, the descent finds each node by its key. -/
theorem rbSearch_of_mem (hnd : (tree.map key).Nodup) (hx : x ∈ tree) : rbSearch key (key x) tree = some x := by
  induction tree with
  | nil => cases hx
  | cons y tree ih =>
    rw [List.map_cons, List.nodup_cons] at hnd
    rcases List.mem_cons.mp hx with rfl | hx
    · simp [rbSearch]
    · -- `y` has another key than `x`
      have hne : key y ≠ key x := fun h => hnd.1 (h ▸ List.mem_map_of_mem hx)
      simp only [rbSearch, List.find?_cons, hne, decide_false]
      exact ih hnd.2 hx

/-- Once the node with a key is erased, no node has that key. -/
theorem rbSearch_erase_self (hnd : (tree.map key).Nodup) (hx : rbSearch key id tree = some x) :
    rbSearch key id (rbErase x tree) = none := by
  obtain ⟨hmem, rfl⟩ := rbSearch_eq_some hx
  apply rbSearch_eq_none_of
  intro y hy hkey
  -- `y` is another node than `x` with the same key
  have hyx : y ≠ x := fun h => (List.Nodup.not_mem_erase (hnd.of_map key) (h ▸ hy))
  have hy' : y ∈ tree := List.mem_of_mem_erase hy
  exact hyx (List.inj_on_of_nodup_map hnd hy' hmem hkey)

theorem rbSearch_erase_of_none (h : rbSearch key id tree = none) (x : LuIdmap) :
    rbSearch key id (rbErase x tree) = none :=
  rbSearch_eq_none_of fun y hy => rbSearch_eq_none h y (List.mem_of_mem_erase hy)

end Search

/-! ## The invariant of one id type -/

/-- The two trees of one id type hold the same records, no client id twice
and no filesystem id twice. -/
structure TreesInv (fwd bck : List LuIdmap) : Prop where
  perm : fwd.Perm bck
  clientNodup : (fwd.map (·.idClient)).Nodup
  fsNodup : (fwd.map (·.idFs)).Nodup

theorem treesInv_iff (fwd bck : List LuIdmap) :
    TreesInv fwd bck ↔ fwd.Perm bck ∧ (fwd.map (·.idClient)).Nodup ∧ (fwd.map (·.idFs)).Nodup := by
  constructor
  · rintro ⟨hp, hc, hf⟩
    exact ⟨hp, hc, hf⟩
  · rintro ⟨hp, hc, hf⟩
    exact ⟨hp, hc, hf⟩

instance (fwd bck : List LuIdmap) : Decidable (TreesInv fwd bck) :=
  decidable_of_iff _ (treesInv_iff fwd bck).symm

section Trees

variable {fwd bck : List LuIdmap}

theorem TreesInv.nil : TreesInv [] [] := ⟨List.Perm.refl [], List.nodup_nil, List.nodup_nil⟩

/-- The fs-to-client tree has no filesystem id twice. -/
theorem TreesInv.bck_fsNodup (h : TreesInv fwd bck) : (bck.map (·.idFs)).Nodup :=
  (h.perm.map _).nodup_iff.mp h.fsNodup

/-- The map `c → f` that the client-to-fs tree gives, the fs-to-client tree
gives back as `f → c`. -/
theorem TreesInv.search_bck (h : TreesInv fwd bck) {c : UInt32} {x : LuIdmap}
    (hx : rbSearch (·.idClient) c fwd = some x) : rbSearch (·.idFs) x.idFs bck = some x ∧ x.idClient = c := by
  obtain ⟨hmem, hkey⟩ := rbSearch_eq_some hx
  exact ⟨rbSearch_of_mem h.bck_fsNodup (h.perm.subset hmem), hkey⟩

/-- And the other way round. -/
theorem TreesInv.search_fwd (h : TreesInv fwd bck) {f : UInt32} {x : LuIdmap}
    (hx : rbSearch (·.idFs) f bck = some x) : rbSearch (·.idClient) x.idClient fwd = some x ∧ x.idFs = f := by
  obtain ⟨hmem, hkey⟩ := rbSearch_eq_some hx
  exact ⟨rbSearch_of_mem h.clientNodup (h.perm.symm.subset hmem), hkey⟩

/-- Inserting a record whose two ids are both new into both trees. -/
theorem TreesInv.insert (h : TreesInv fwd bck) {x : LuIdmap}
    (hc : ∀ y ∈ fwd, y.idClient ≠ x.idClient) (hf : ∀ y ∈ bck, y.idFs ≠ x.idFs) :
    TreesInv (rbInsert (·.idClient) x fwd) (rbInsert (·.idFs) x bck) := by
  have hpf : (rbInsert (·.idClient) x fwd).Perm (x :: fwd) := List.perm_orderedInsert _ x fwd
  have hpb : (rbInsert (·.idFs) x bck).Perm (x :: bck) := List.perm_orderedInsert _ x bck
  have hf' : ∀ y ∈ fwd, y.idFs ≠ x.idFs := fun y hy => hf y (h.perm.subset hy)
  refine ⟨hpf.trans ((h.perm.cons x).trans hpb.symm), ?_, ?_⟩
  · rw [(hpf.map _).nodup_iff, List.map_cons, List.nodup_cons]
    refine ⟨?_, h.clientNodup⟩
    intro hm
    obtain ⟨y, hy, heq⟩ := List.mem_map.mp hm
    exact hc y hy heq
  · rw [(hpf.map _).nodup_iff, List.map_cons, List.nodup_cons]
    refine ⟨?_, h.fsNodup⟩
    intro hm
    obtain ⟨y, hy, heq⟩ := List.mem_map.mp hm
    exact hf' y hy heq

/-- Erasing a record from both trees. -/
theorem TreesInv.erase (h : TreesInv fwd bck) (x : LuIdmap) : TreesInv (rbErase x fwd) (rbErase x bck) :=
  ⟨h.perm.erase x, h.clientNodup.sublist (List.erase_sublist.map _), h.fsNodup.sublist (List.erase_sublist.map _)⟩

/-- What the two trees mean: a partial bijection from client ids to
filesystem ids, looked up forward in one tree and backward in the other. -/
def TreesInv.toPEquiv (h : TreesInv fwd bck) : UInt32 ≃. UInt32 where
  toFun c := (rbSearch (·.idClient) c fwd).map (·.idFs)
  invFun f := (rbSearch (·.idFs) f bck).map (·.idClient)
  inv c f := by
    constructor
    · intro hc
      obtain ⟨x, hx, rfl⟩ := Option.map_eq_some_iff.mp hc
      obtain ⟨hfwd, hfs⟩ := h.search_fwd hx
      exact Option.map_eq_some_iff.mpr ⟨x, hfwd, hfs⟩
    · intro hf
      obtain ⟨x, hx, rfl⟩ := Option.map_eq_some_iff.mp hf
      obtain ⟨hbck, hcl⟩ := h.search_bck hx
      exact Option.map_eq_some_iff.mpr ⟨x, hbck, hcl⟩

end Trees

/-! ## The nodemap -/

/-- Both id types keep the invariant. -/
def NodemapInv (nodemap : LuNodemap) : Prop :=
  ∀ idType, TreesInv (nodemap.fwdRoot idType) (nodemap.bckRoot idType)

theorem nodemapInv_iff (nodemap : LuNodemap) :
    NodemapInv nodemap ↔ TreesInv (nodemap.fwdRoot .uid) (nodemap.bckRoot .uid) ∧
      TreesInv (nodemap.fwdRoot .gid) (nodemap.bckRoot .gid) := by
  constructor
  · intro h
    exact ⟨h .uid, h .gid⟩
  · rintro ⟨hu, hg⟩ idType
    cases idType
    · exact hu
    · exact hg

instance (nodemap : LuNodemap) : Decidable (NodemapInv nodemap) :=
  decidable_of_iff _ (nodemapInv_iff nodemap).symm

section Roots

variable (nodemap : LuNodemap) (fwd bck : List LuIdmap)

@[simp] theorem setRoots_fwdRoot (idType : NodemapIdType) : (nodemap.setRoots idType fwd bck).fwdRoot idType = fwd := by
  cases idType <;> rfl

@[simp] theorem setRoots_bckRoot (idType : NodemapIdType) : (nodemap.setRoots idType fwd bck).bckRoot idType = bck := by
  cases idType <;> rfl

/-- The trees of the other id type are left alone. -/
theorem setRoots_fwdRoot_ne {idType idType' : NodemapIdType} (hne : idType' ≠ idType) :
    (nodemap.setRoots idType fwd bck).fwdRoot idType' = nodemap.fwdRoot idType' := by
  cases idType <;> cases idType' <;> first | rfl | exact absurd rfl hne

theorem setRoots_bckRoot_ne {idType idType' : NodemapIdType} (hne : idType' ≠ idType) :
    (nodemap.setRoots idType fwd bck).bckRoot idType' = nodemap.bckRoot idType' := by
  cases idType <;> cases idType' <;> first | rfl | exact absurd rfl hne

end Roots

section Steps

variable {nodemap : LuNodemap} {idType : NodemapIdType}

/-- Replacing the trees of one id type by trees that keep the invariant. -/
theorem NodemapInv.setRoots (h : NodemapInv nodemap) {fwd bck : List LuIdmap} (ht : TreesInv fwd bck) :
    NodemapInv (nodemap.setRoots idType fwd bck) := by
  intro idType'
  by_cases hty : idType' = idType
  · subst hty
    rw [setRoots_fwdRoot, setRoots_bckRoot]
    exact ht
  · rw [setRoots_fwdRoot_ne nodemap fwd bck hty, setRoots_bckRoot_ne nodemap fwd bck hty]
    exact h idType'

@[simp] theorem idmapDelete_fwdRoot (x : LuIdmap) :
    (idmapDelete idType x nodemap).fwdRoot idType = rbErase x (nodemap.fwdRoot idType) := by
  simp [idmapDelete]

@[simp] theorem idmapDelete_bckRoot (x : LuIdmap) :
    (idmapDelete idType x nodemap).bckRoot idType = rbErase x (nodemap.bckRoot idType) := by
  simp [idmapDelete]

theorem idmapDelete_inv (h : NodemapInv nodemap) (idType : NodemapIdType) (x : LuIdmap) :
    NodemapInv (idmapDelete idType x nodemap) :=
  h.setRoots ((h idType).erase x)

/-- What `idmap_insert` can do: insert a record whose ids are both new, find
both ids taken, or return the one record that holds the one id taken; only
the first changes the nodemap. -/
theorem idmapInsert_cases (idType : NodemapIdType) (x : LuIdmap) (nodemap : LuNodemap) :
    (rbSearch (·.idClient) x.idClient (nodemap.fwdRoot idType) = none ∧
      rbSearch (·.idFs) x.idFs (nodemap.bckRoot idType) = none ∧
      idmapInsert idType x nodemap = (.inserted, nodemap.setRoots idType
        (rbInsert (·.idClient) x (nodemap.fwdRoot idType)) (rbInsert (·.idFs) x (nodemap.bckRoot idType)))) ∨
    idmapInsert idType x nodemap = (.exists, nodemap) ∨
    ∃ old, ((rbSearch (·.idClient) x.idClient (nodemap.fwdRoot idType) = some old ∧
        rbSearch (·.idFs) x.idFs (nodemap.bckRoot idType) = none) ∨
      (rbSearch (·.idClient) x.idClient (nodemap.fwdRoot idType) = none ∧
        rbSearch (·.idFs) x.idFs (nodemap.bckRoot idType) = some old)) ∧
      idmapInsert idType x nodemap = (.matched old, nodemap) := by
  cases hc : rbSearch (·.idClient) x.idClient (nodemap.fwdRoot idType) with
  | none =>
    cases hf : rbSearch (·.idFs) x.idFs (nodemap.bckRoot idType) with
    | none => exact .inl ⟨rfl, rfl, by simp only [idmapInsert, hc, hf]⟩
    | some bckCur => exact .inr (.inr ⟨bckCur, .inr ⟨rfl, rfl⟩, by simp only [idmapInsert, hc, hf]⟩)
  | some fwdCur =>
    cases hf : rbSearch (·.idFs) x.idFs (nodemap.bckRoot idType) with
    | none => exact .inr (.inr ⟨fwdCur, .inl ⟨rfl, rfl⟩, by simp only [idmapInsert, hc, hf]⟩)
    | some bckCur => exact .inr (.inl (by simp only [idmapInsert, hc, hf]))

theorem idmapInsert_inv (h : NodemapInv nodemap) (idType : NodemapIdType) (x : LuIdmap) :
    NodemapInv (idmapInsert idType x nodemap).2 := by
  rcases idmapInsert_cases idType x nodemap with ⟨hc, hf, heq⟩ | heq | ⟨old, -, heq⟩
  · rw [heq]
    exact h.setRoots ((h idType).insert (rbSearch_eq_none hc) (rbSearch_eq_none hf))
  · rw [heq]
    exact h
  · rw [heq]
    exact h

/-- The record that `idmap_insert` returns for the one id taken is the only
record holding either id: once it is deleted, the insert goes through. -/
theorem idmapInsert_matched_delete (h : NodemapInv nodemap) {x old : LuIdmap}
    (hm : (idmapInsert idType x nodemap).1 = .matched old) :
    idmapInsert idType x (idmapDelete idType old nodemap) =
      (.inserted, (idmapDelete idType old nodemap).setRoots idType
        (rbInsert (·.idClient) x (rbErase old (nodemap.fwdRoot idType)))
        (rbInsert (·.idFs) x (rbErase old (nodemap.bckRoot idType)))) := by
  have ht := h idType
  -- the two searches of the second insert find nothing
  have hfree : rbSearch (·.idClient) x.idClient (rbErase old (nodemap.fwdRoot idType)) = none ∧
      rbSearch (·.idFs) x.idFs (rbErase old (nodemap.bckRoot idType)) = none := by
    rcases idmapInsert_cases idType x nodemap with ⟨-, -, heq⟩ | heq | ⟨old', hs, heq⟩
    · rw [heq] at hm
      cases hm
    · rw [heq] at hm
      cases hm
    · rw [heq] at hm
      cases hm
      rcases hs with ⟨hc, hf⟩ | ⟨hc, hf⟩
      · exact ⟨rbSearch_erase_self ht.clientNodup hc, rbSearch_erase_of_none hf old⟩
      · exact ⟨rbSearch_erase_of_none hc old, rbSearch_erase_self ht.bck_fsNodup hf⟩
  rcases idmapInsert_cases idType x (idmapDelete idType old nodemap) with ⟨-, -, heq⟩ | heq | ⟨old', hs, -⟩
  · rw [heq, idmapDelete_fwdRoot, idmapDelete_bckRoot]
  · simp only [idmapInsert, idmapDelete_fwdRoot, idmapDelete_bckRoot, hfree.1, hfree.2] at heq
    cases heq
  · rw [idmapDelete_fwdRoot, idmapDelete_bckRoot, hfree.1, hfree.2] at hs
    rcases hs with ⟨hc, -⟩ | ⟨-, hf⟩
    · cases hc
    · cases hf

/-! ## Adding a map -/

/-- What `nodemap_add_idmap_helper` can do, when the trees keep the
invariant: fail to allocate, find both ids taken, insert the map; or replace
the one record that shares an id with it, which then either goes through or,
when the index update fails, ends with the old record deleted and the new one
not inserted. The second insert never finds an id taken, so its `-EEXIST`
and `-EPERM` are out of reach. -/
theorem nodemapAddIdmapHelper_cases (h : NodemapInv nodemap) (map : UInt32 × UInt32) (createOk : Bool)
    (idxDelRc : Int) :
    let x : LuIdmap := ⟨map.1, map.2⟩
    nodemapAddIdmapHelper nodemap idType map createOk idxDelRc = (-enomem, nodemap) ∨
    nodemapAddIdmapHelper nodemap idType map createOk idxDelRc = (-eexist, nodemap) ∨
    (∃ nm, idmapInsert idType x nodemap = (.inserted, nm) ∧
      nodemapAddIdmapHelper nodemap idType map createOk idxDelRc = (0, nm)) ∨
    (∃ old nm, idmapInsert idType x nodemap = (.matched old, nodemap) ∧
      idmapInsert idType x (idmapDelete idType old nodemap) = (.inserted, nm) ∧
      nodemapAddIdmapHelper nodemap idType map createOk idxDelRc = (0, nm)) ∨
    (∃ old, idmapInsert idType x nodemap = (.matched old, nodemap) ∧ ¬ (idxDelRc = 0 ∨ idxDelRc = -enoent) ∧
      nodemapAddIdmapHelper nodemap idType map createOk idxDelRc = (idxDelRc, idmapDelete idType old nodemap)) := by
  intro x
  cases createOk with
  | false => exact .inl (by simp [nodemapAddIdmapHelper])
  | true =>
    rcases idmapInsert_cases idType x nodemap with ⟨-, -, heq⟩ | heq | ⟨old, -, heq⟩
    · refine .inr (.inr (.inl ⟨_, heq, ?_⟩))
      simp only [nodemapAddIdmapHelper, x] at heq ⊢
      simp [heq]
    · refine .inr (.inl ?_)
      simp only [nodemapAddIdmapHelper, x] at heq ⊢
      simp [heq]
    · -- the old record is deleted; the index update decides the rest
      have hm : (idmapInsert idType x nodemap).1 = .matched old := by rw [heq]
      have hre := idmapInsert_matched_delete h hm
      by_cases hrc : idxDelRc = 0 ∨ idxDelRc = -enoent
      · refine .inr (.inr (.inr (.inl ⟨old, _, heq, hre, ?_⟩)))
        simp only [nodemapAddIdmapHelper, x] at heq hre ⊢
        simp [heq, hre, hrc]
      · refine .inr (.inr (.inr (.inr ⟨old, heq, hrc, ?_⟩)))
        simp only [nodemapAddIdmapHelper, x] at heq ⊢
        simp [heq, hrc]

/-- The failing path: when the client id of the map is mapped to another
filesystem id that the new map does not reuse, and the index update for the
old record fails, the helper returns that error with the client id mapped to
nothing, in both trees, where the old map stood before the call. -/
theorem nodemap_add_idmap_idx_del_error_drops_map (h : NodemapInv nodemap) {map : UInt32 × UInt32}
    {old : LuIdmap} {idxDelRc : Int} (hold : idmapSearch nodemap .clientToFs idType map.1 = some old)
    (hfs : idmapSearch nodemap .fsToClient idType map.2 = none) (hrc : ¬ (idxDelRc = 0 ∨ idxDelRc = -enoent)) :
    ∃ nm, nodemapAddIdmapHelper nodemap idType map true idxDelRc = (idxDelRc, nm) ∧ idxDelRc ≠ 0 ∧
      idmapSearch nm .clientToFs idType map.1 = none ∧ idmapSearch nm .fsToClient idType old.idFs = none := by
  have ht := h idType
  have hc : rbSearch (·.idClient) map.1 (nodemap.fwdRoot idType) = some old := hold
  have hf : rbSearch (·.idFs) map.2 (nodemap.bckRoot idType) = none := hfs
  -- the first insert finds the client id only, and returns the old record
  have hins : idmapInsert idType ⟨map.1, map.2⟩ nodemap = (.matched old, nodemap) := by
    simp only [idmapInsert, hc, hf]
  refine ⟨idmapDelete idType old nodemap, ?_, fun h0 => hrc (.inl h0), ?_, ?_⟩
  · simp only [nodemapAddIdmapHelper] at hins ⊢
    simp [hins, hrc]
  · show rbSearch (·.idClient) map.1 ((idmapDelete idType old nodemap).fwdRoot idType) = none
    rw [idmapDelete_fwdRoot]
    exact rbSearch_erase_self ht.clientNodup hc
  · show rbSearch (·.idFs) old.idFs ((idmapDelete idType old nodemap).bckRoot idType) = none
    rw [idmapDelete_bckRoot]
    exact rbSearch_erase_self ht.bck_fsNodup (ht.search_bck hc).1

/-- The uid trees hold `1 ↔ 10`; adding `1 ↔ 20` while the index returns
`-EIO` (5) for the old record ends with uid 1 mapped to nothing. -/
theorem nodemap_add_idmap_idx_del_eio :
    NodemapInv ⟨1, false, false, false, false, 99, 99, [⟨1, 10⟩], [⟨1, 10⟩], [], []⟩ ∧
      idmapSearch ⟨1, false, false, false, false, 99, 99, [⟨1, 10⟩], [⟨1, 10⟩], [], []⟩ .clientToFs .uid 1 =
        some ⟨1, 10⟩ ∧
      ∃ nm, nodemapAddIdmapHelper ⟨1, false, false, false, false, 99, 99, [⟨1, 10⟩], [⟨1, 10⟩], [], []⟩ .uid (1, 20)
          true (-5) = (-5, nm) ∧ (-5 : Int) ≠ 0 ∧
        idmapSearch nm .clientToFs .uid 1 = none ∧ idmapSearch nm .fsToClient .uid 10 = none :=
  have hinv : NodemapInv ⟨1, false, false, false, false, 99, 99, [⟨1, 10⟩], [⟨1, 10⟩], [], []⟩ := by decide
  ⟨hinv, rfl, @nodemap_add_idmap_idx_del_error_drops_map _ .uid hinv (1, 20) ⟨1, 10⟩ (-5) rfl rfl
    (show ¬ ((-5 : Int) = 0 ∨ (-5 : Int) = -enoent) by decide)⟩

theorem nodemapAddIdmapHelper_inv (h : NodemapInv nodemap) (map : UInt32 × UInt32) (createOk : Bool)
    (idxDelRc : Int) : NodemapInv (nodemapAddIdmapHelper nodemap idType map createOk idxDelRc).2 := by
  rcases nodemapAddIdmapHelper_cases h map createOk idxDelRc with heq | heq | ⟨nm, hins, heq⟩ |
      ⟨old, nm, -, hins, heq⟩ | ⟨old, -, -, heq⟩
  · rw [heq]
    exact h
  · rw [heq]
    exact h
  · rw [heq]
    have := idmapInsert_inv h idType ⟨map.1, map.2⟩
    rwa [hins] at this
  · rw [heq]
    have := idmapInsert_inv (idmapDelete_inv h idType old) idType ⟨map.1, map.2⟩
    rwa [hins] at this
  · rw [heq]
    exact idmapDelete_inv h idType old

theorem nodemapAddIdmap_inv (h : NodemapInv nodemap) (map : UInt32 × UInt32) (createOk : Bool)
    (idxDelRc idxAddRc : Int) : NodemapInv (nodemapAddIdmap nodemap idType map createOk idxDelRc idxAddRc).2 := by
  unfold nodemapAddIdmap
  by_cases hdef : isDefaultNodemap nodemap
  · simp only [hdef, if_true]
    exact h
  · simp only [hdef]
    -- whatever the index returns, the trees are those the helper left
    have hhelp : NodemapInv (nodemapAddIdmapHelper nodemap idType map createOk idxDelRc).2 :=
      nodemapAddIdmapHelper_inv h map createOk idxDelRc
    by_cases hrc : (nodemapAddIdmapHelper nodemap idType map createOk idxDelRc).1 = 0
    · rw [if_pos hrc]
      exact hhelp
    · rw [if_neg hrc]
      exact hhelp

/-! ## Deleting a map -/

theorem nodemapDelIdmap_inv (h : NodemapInv nodemap) (map : UInt32 × UInt32) (idxDelRc : Int) :
    NodemapInv (nodemapDelIdmap nodemap idType map idxDelRc).2 := by
  unfold nodemapDelIdmap
  by_cases hdef : isDefaultNodemap nodemap
  · simp only [hdef, if_true]
    exact h
  · simp only [hdef]
    cases idmapSearch nodemap .clientToFs idType map.1 with
    | none => exact h
    | some x => exact idmapDelete_inv h idType x

/-! ## Runs of id map calls -/

theorem idmapStep_inv (h : NodemapInv nodemap) {op : IdmapOp} {rc : Int} {nm : LuNodemap}
    (hstep : idmapStep nodemap op = some (rc, nm)) : NodemapInv nm := by
  -- each call returns, and the state it returns is the one its lemma is about
  cases op with
  | addHelper idType map createOk idxDelRc =>
    have hnm : (nodemapAddIdmapHelper nodemap idType map createOk idxDelRc).2 = nm :=
      congrArg Prod.snd (Option.some.inj hstep)
    rw [← hnm]
    exact nodemapAddIdmapHelper_inv h map createOk idxDelRc
  | add idType map createOk idxDelRc idxAddRc =>
    have hnm : (nodemapAddIdmap nodemap idType map createOk idxDelRc idxAddRc).2 = nm :=
      congrArg Prod.snd (Option.some.inj hstep)
    rw [← hnm]
    exact nodemapAddIdmap_inv h map createOk idxDelRc idxAddRc
  | del idType map idxDelRc =>
    have hnm : (nodemapDelIdmap nodemap idType map idxDelRc).2 = nm := congrArg Prod.snd (Option.some.inj hstep)
    rw [← hnm]
    exact nodemapDelIdmap_inv h map idxDelRc

/-- After any run of adds and deletes, with any outcome of the allocations
and the index updates, the trees of each id type hold one bijection: each
client id the client-to-fs tree maps to `f` the fs-to-client tree maps back
from `f`, and the other way round. -/
theorem nodemap_idmap_run_inv (h : NodemapInv nodemap) {ops : List IdmapOp} {rcs : List Int} {nm : LuNodemap}
    (hrun : StepRun.run idmapStep nodemap ops = some (rcs, nm)) :
    NodemapInv nm ∧ ∀ idType c x, idmapSearch nm .clientToFs idType c = some x →
      idmapSearch nm .fsToClient idType x.idFs = some x ∧ x.idClient = c := by
  have hinv : NodemapInv nm :=
    StepRun.run_inv idmapStep (fun _ _ => True) NodemapInv (fun _ _ _ _ _ hs hstep => idmapStep_inv hs hstep)
      ops nodemap rcs nm (StepRun.allowedRun_of_forall idmapStep (fun _ => True) ops nodemap fun _ _ => trivial) h hrun
  exact ⟨hinv, fun idType c x hx => (hinv idType).search_bck hx⟩

/-- Two maps added to an empty nodemap, the second replacing the first's
filesystem id, and the first deleted again. -/
theorem nodemap_idmap_run_inv_add_del :
    NodemapInv ⟨1, false, false, false, false, 99, 99, [], [], [], []⟩ ∧
      ∃ rcs nm, StepRun.run idmapStep ⟨1, false, false, false, false, 99, 99, [], [], [], []⟩
          [.add .uid (1, 10) true 0 0, .add .uid (2, 10) true 0 0, .del .uid (1, 10) 0] = some (rcs, nm) ∧
        NodemapInv nm ∧ ∀ idType c x, idmapSearch nm .clientToFs idType c = some x →
          idmapSearch nm .fsToClient idType x.idFs = some x ∧ x.idClient = c := by
  have hinv : NodemapInv ⟨1, false, false, false, false, 99, 99, [], [], [], []⟩ := by decide
  obtain ⟨⟨rcs, nm⟩, hrun⟩ : ∃ r, StepRun.run idmapStep ⟨1, false, false, false, false, 99, 99, [], [], [], []⟩
      [.add .uid (1, 10) true 0 0, .add .uid (2, 10) true 0 0, .del .uid (1, 10) 0] = some r := ⟨_, rfl⟩
  exact ⟨hinv, rcs, nm, hrun, nodemap_idmap_run_inv hinv hrun⟩

end Steps

end Lustre.Nodemap
