import Mathlib
import Lustre.Basic

/-! # Nodemap id maps

`lustre/ptlrpc/nodemap_idmap.c` and the id map part of
`lustre/ptlrpc/nodemap_handler.c`. A nodemap maps the user and group ids of
its clients to ids on the filesystem. Each map is a set of `lu_idmap`
records kept in two rb-trees, one keyed by the client id (`CLIENT_TO_FS`)
and one by the filesystem id (`FS_TO_CLIENT`).

An rb-tree is modelled by the list of its nodes in key order: the descent of
`idmap_insert` and `idmap_search` finds the node with the key (`rbSearch`),
`rb_link_node` with `rb_insert_color` puts a node at its place in key order
(`rbInsert`), and `rb_erase` removes it. The on-disk index updates
`nodemap_idx_idmap_add` and `nodemap_idx_idmap_del` return a status that is
an input, as is whether an allocation succeeds. `nodemap_lookup` by name and
the configuration lock are left out: the functions take the nodemap.
-/

namespace Lustre.Nodemap

/-- `struct lu_idmap`, without its two tree nodes. -/
structure LuIdmap where
  idClient : UInt32
  idFs : UInt32
  deriving DecidableEq, Repr

/-- `enum nodemap_id_type`. -/
inductive NodemapIdType where
  | uid
  | gid
  deriving DecidableEq, Repr

/-- `enum nodemap_tree_type`. -/
inductive NodemapTreeType where
  | fsToClient
  | clientToFs
  deriving DecidableEq, Repr

/-- The fields of `struct lu_nodemap` that the id maps use: the id, the
mapping flags, the squash ids and the four trees. -/
structure LuNodemap where
  nmId : UInt32
  nmfTrustClientIds : Bool
  nmfAllowRootAccess : Bool
  nmfMapUidOnly : Bool
  nmfMapGidOnly : Bool
  nmSquashUid : UInt32
  nmSquashGid : UInt32
  nmClientToFsUidmap : List LuIdmap
  nmFsToClientUidmap : List LuIdmap
  nmClientToFsGidmap : List LuIdmap
  nmFsToClientGidmap : List LuIdmap
  deriving DecidableEq, Repr

/-- `LUSTRE_NODEMAP_DEFAULT_ID`. -/
def lustreNodemapDefaultId : UInt32 := 0

/-- `is_default_nodemap(nodemap)`. -/
def isDefaultNodemap (nodemap : LuNodemap) : Bool := nodemap.nmId = lustreNodemapDefaultId

/-! ## The trees -/

/-- The descent of an rb-tree for `id`: the node whose key is `id`. -/
def rbSearch (key : LuIdmap → UInt32) (id : UInt32) (tree : List LuIdmap) : Option LuIdmap :=
  tree.find? (key · = id)

/-- `rb_link_node` at the leaf the descent ended at, then `rb_insert_color`:
the node takes its place in key order. -/
def rbInsert (key : LuIdmap → UInt32) (idmap : LuIdmap) (tree : List LuIdmap) : List LuIdmap :=
  tree.orderedInsert (fun a b => key a ≤ key b) idmap

/-- `rb_erase(node, root)`. -/
def rbErase (idmap : LuIdmap) (tree : List LuIdmap) : List LuIdmap := tree.erase idmap

/-- The client-to-fs tree of an id type, which `idmap_insert` calls the
forward one. -/
def LuNodemap.fwdRoot (nodemap : LuNodemap) : NodemapIdType → List LuIdmap
  | .uid => nodemap.nmClientToFsUidmap
  | .gid => nodemap.nmClientToFsGidmap

/-- The fs-to-client tree of an id type, the backward one. -/
def LuNodemap.bckRoot (nodemap : LuNodemap) : NodemapIdType → List LuIdmap
  | .uid => nodemap.nmFsToClientUidmap
  | .gid => nodemap.nmFsToClientGidmap

/-- Replace both trees of an id type. -/
def LuNodemap.setRoots (nodemap : LuNodemap) (idType : NodemapIdType) (fwd bck : List LuIdmap) : LuNodemap :=
  match idType with
  | .uid => { nodemap with nmClientToFsUidmap := fwd, nmFsToClientUidmap := bck }
  | .gid => { nodemap with nmClientToFsGidmap := fwd, nmFsToClientGidmap := bck }

/-- What `idmap_insert` returns. -/
inductive IdmapInsert where
  /-- `NULL`: inserted into both trees -/
  | inserted
  /-- `ERR_PTR(-EEXIST)`: both ids are taken -/
  | exists
  /-- the idmap holding the one id that is taken -/
  | matched (old : LuIdmap)
  deriving DecidableEq, Repr

/-- `idmap_insert(id_type, idmap, nodemap)`. -/
def idmapInsert (idType : NodemapIdType) (idmap : LuIdmap) (nodemap : LuNodemap) : IdmapInsert × LuNodemap :=
  let fwdRoot := nodemap.fwdRoot idType
  let bckRoot := nodemap.bckRoot idType
  match rbSearch (·.idClient) idmap.idClient fwdRoot, rbSearch (·.idFs) idmap.idFs bckRoot with
  | some _, some _ => (.exists, nodemap)
  | none, none =>
    (.inserted, nodemap.setRoots idType (rbInsert (·.idClient) idmap fwdRoot) (rbInsert (·.idFs) idmap bckRoot))
  | some fwdCur, none => (.matched fwdCur, nodemap)
  | none, some bckCur => (.matched bckCur, nodemap)

/-- `idmap_delete(id_type, idmap, nodemap)`. -/
def idmapDelete (idType : NodemapIdType) (idmap : LuIdmap) (nodemap : LuNodemap) : LuNodemap :=
  nodemap.setRoots idType (rbErase idmap (nodemap.fwdRoot idType)) (rbErase idmap (nodemap.bckRoot idType))

/-- `idmap_search(nodemap, tree_type, id_type, id)`. -/
def idmapSearch (nodemap : LuNodemap) (treeType : NodemapTreeType) (idType : NodemapIdType) (id : UInt32) :
    Option LuIdmap :=
  match treeType with
  | .fsToClient => rbSearch (·.idFs) id (nodemap.bckRoot idType)
  | .clientToFs => rbSearch (·.idClient) id (nodemap.fwdRoot idType)

/-! ## Adding and deleting maps -/

/-- `nodemap_add_idmap_helper(nodemap, id_type, map)`: `createOk` is whether
`idmap_create` gets its record, `idxDelRc` what `nodemap_idx_idmap_del`
returns when an old map is replaced. -/
def nodemapAddIdmapHelper (nodemap : LuNodemap) (idType : NodemapIdType) (map : UInt32 × UInt32)
    (createOk : Bool) (idxDelRc : Int) : Int × LuNodemap :=
  if ¬ createOk then (-enomem, nodemap)
  else
    let idmap : LuIdmap := ⟨map.1, map.2⟩
    match idmapInsert idType idmap nodemap with
    | (.exists, nodemap) => (-eexist, nodemap)
    | (.inserted, nodemap) => (0, nodemap)
    | (.matched temp, nodemap) =>
      -- the old map goes from the trees, then from the index
      let nodemap := idmapDelete idType temp nodemap
      let rc := idxDelRc
      if rc = 0 ∨ rc = -enoent then
        match idmapInsert idType idmap nodemap with
        | (.exists, nodemap) => (-eexist, nodemap)
        | (.inserted, nodemap) => (0, nodemap)
        | (.matched _, nodemap) => (-eperm, nodemap)
      else (rc, nodemap)

/-- `nodemap_add_idmap(name, id_type, map)` on the nodemap of that name:
`idxAddRc` is what `nodemap_idx_idmap_add` returns. -/
def nodemapAddIdmap (nodemap : LuNodemap) (idType : NodemapIdType) (map : UInt32 × UInt32) (createOk : Bool)
    (idxDelRc idxAddRc : Int) : Int × LuNodemap :=
  if isDefaultNodemap nodemap then (-einval, nodemap)
  else
    let (rc, nodemap) := nodemapAddIdmapHelper nodemap idType map createOk idxDelRc
    if rc = 0 then (idxAddRc, nodemap) else (rc, nodemap)

/-- `nodemap_del_idmap(name, id_type, map)` on the nodemap of that name: the
map of the client id `map[0]` goes, whatever its filesystem id. -/
def nodemapDelIdmap (nodemap : LuNodemap) (idType : NodemapIdType) (map : UInt32 × UInt32) (idxDelRc : Int) :
    Int × LuNodemap :=
  if isDefaultNodemap nodemap then (-einval, nodemap)
  else
    match idmapSearch nodemap .clientToFs idType map.1 with
    | none => (-einval, nodemap)
    | some idmap => (idxDelRc, idmapDelete idType idmap nodemap)

/-- The id map calls on one nodemap, under `active_config_lock`, with the
outcomes of the allocation and the index updates. -/
inductive IdmapOp where
  | addHelper (idType : NodemapIdType) (map : UInt32 × UInt32) (createOk : Bool) (idxDelRc : Int)
  | add (idType : NodemapIdType) (map : UInt32 × UInt32) (createOk : Bool) (idxDelRc idxAddRc : Int)
  | del (idType : NodemapIdType) (map : UInt32 × UInt32) (idxDelRc : Int)
  deriving DecidableEq, Repr

/-- One call and what it returns. -/
def idmapStep (nodemap : LuNodemap) : IdmapOp → Option (Int × LuNodemap)
  | .addHelper idType map createOk idxDelRc => some (nodemapAddIdmapHelper nodemap idType map createOk idxDelRc)
  | .add idType map createOk idxDelRc idxAddRc =>
    some (nodemapAddIdmap nodemap idType map createOk idxDelRc idxAddRc)
  | .del idType map idxDelRc => some (nodemapDelIdmap nodemap idType map idxDelRc)

/-! ## Mapping an id -/

/-- `nodemap_map_id(nodemap, id_type, tree_type, id)`, with `nodemapActive`
the global `nodemap_active` and `none` for a `NULL` nodemap. -/
def nodemapMapId (nodemapActive : Bool) (nodemap : Option LuNodemap) (idType : NodemapIdType)
    (treeType : NodemapTreeType) (id : UInt32) : UInt32 :=
  match nodemap with
  | none => id
  | some nodemap =>
    let squash := match idType with
      | .uid => nodemap.nmSquashUid
      | .gid => nodemap.nmSquashGid
    if ¬ nodemapActive then id
    else if nodemap.nmfMapUidOnly ∧ idType = .gid then id
    else if nodemap.nmfMapGidOnly ∧ idType = .uid then id
    else if id = 0 then (if nodemap.nmfAllowRootAccess then id else squash)
    else if nodemap.nmfTrustClientIds then id
    else if isDefaultNodemap nodemap then squash
    else
      match idmapSearch nodemap treeType idType id with
      | none => squash
      | some idmap =>
        match treeType with
        | .fsToClient => idmap.idClient
        | .clientToFs => idmap.idFs

end Lustre.Nodemap
