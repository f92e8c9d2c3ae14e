import Mathlib
import Lustre.Basic
import Lustre.Lib.Bytes
import Lustre.Lib.CArith
import Lustre.Lib.CString

/-! # Placing a name on a stripe of a striped directory

`lustre/include/lustre_lmv.h` and `lu_object.h`. A striped directory spreads
its entries over `lmv_stripe_count` stripes; `lmv_name_to_stripe_index`
(the layout after a change) and `lmv_name_to_stripe_index_old` (the layout
before it) say which stripe a name is on, by the hash the layout names:

* `lmv_hash_all_chars`: the sum of the bytes;
* `lmv_hash_fnv1a`: FNV-1a over 64 bits (`lustre_hash_fnv_1a_64`);
* `lmv_hash_crush`: a placement group by FNV-1a, then the stripe whose
  `crush_hash` straw is the highest; temporary and backup names are hashed as
  the name they were made from (`lu_name_is_temp_file`,
  `lu_name_is_backup_file`).

A directory being split, merged or migrated keeps a second hash type and a
stripe count in `lmv_migrate_hash` and `lmv_migrate_offset`, and
`__lmv_name_to_stripe_index` switches to them. Names are the bytes of the
name, `namelen` their number. The arithmetic is the source's: `__u32` and
`__u64` wrap, the index is computed as `unsigned int` and returned as an
`int` (`narrowInt`). A failed `LASSERT` is `none`. The host's byte order is
a parameter: `le32_to_cpu` and `cpu_to_le32` swap the bytes on a big-endian
host.
-/

namespace Lustre.Lmv

open ByteCodec CArith CFormat

/-! ## Hash functions -/

def lustreFnv1a64Prime : UInt64 := 0x100000001b3
def lustreFnv1a64OffsetBias : UInt64 := 0xcbf29ce484222325

/-- `lustre_hash_fnv_1a_64(buf, size)`. -/
def lustreHashFnv1a64 (buf : List UInt8) : UInt64 :=
  buf.foldl (fun hash b => (hash ^^^ b.toUInt64) * lustreFnv1a64Prime) lustreFnv1a64OffsetBias

/-- `lmv_hash_all_chars(count, name, namelen)`: `while (--namelen >= 0) c +=
p[namelen]; c = c % count;`. -/
def lmvHashAllChars (count : UInt32) (name : List UInt8) : UInt32 :=
  name.foldr (fun b c => c + b.toUInt32) 0 % count

/-- `lmv_hash_fnv1a(count, name, namelen)`: `do_div` leaves the remainder. -/
def lmvHashFnv1a (count : UInt32) (name : List UInt8) : UInt32 :=
  (lustreHashFnv1a64 name % count.toUInt64).toUInt32

/-- `crush_hashmix(a, b, c)`, which updates its three arguments. -/
def crushHashmix (a b c : UInt32) : UInt32 × UInt32 × UInt32 :=
  let a := a - b; let a := a - c; let a := a ^^^ (c >>> 13)
  let b := b - c; let b := b - a; let b := b ^^^ (a <<< 8)
  let c := c - a; let c := c - b; let c := c ^^^ (b >>> 13)
  let a := a - b; let a := a - c; let a := a ^^^ (c >>> 12)
  let b := b - c; let b := b - a; let b := b ^^^ (a <<< 16)
  let c := c - a; let c := c - b; let c := c ^^^ (b >>> 5)
  let a := a - b; let a := a - c; let a := a ^^^ (c >>> 3)
  let b := b - c; let b := b - a; let b := b ^^^ (a <<< 10)
  let c := c - a; let c := c - b; let c := c ^^^ (b >>> 15)
  (a, b, c)

def crushHashSeed : UInt32 := 1315423911

/-- `crush_hash(a, b)`; the third `crush_hashmix` reads the `b` of the first,
and nothing reads what the last two leave in `x`, `a`, `b` and `y`. -/
def crushHash (a b : UInt32) : UInt32 :=
  let hash := crushHashSeed ^^^ a ^^^ b
  let x : UInt32 := 231232
  let y : UInt32 := 1232
  let (a, b, hash) := crushHashmix a b hash
  let (_, _, hash) := crushHashmix x a hash
  let (_, _, hash) := crushHashmix b y hash
  hash

/-! ## Temporary and backup names -/

/-- `lu_name_is_temp_file(name, namelen, dot_prefix, suffixlen)`: a name
`[.]<target>.<suffix>` whose suffix mixes cases or digits as `mktemp` makes
them. -/
def luNameIsTempFile (name : List UInt8) (dotPrefix : Bool) (suffixlen : Nat) : Bool :=
  let namelen := name.length
  if dotPrefix && name.getD 0 0 != '.'.toUInt8 then false
  else if namelen < dotPrefix.toNat + suffixlen + 2 ||
      name.getD (namelen - suffixlen - 1) 0 != '.'.toUInt8 then false
  else
    -- the counts of the `while (len)` loop over the suffix
    let suffix := name.drop (namelen - suffixlen)
    let lower := (suffix.filter isLower).length
    let upper := (suffix.filter isUpper).length
    let digit := (suffix.filter isDigit).length
    if (digit ≥ suffixlen - 1 && !isDigit (name.getD (namelen - suffixlen) 0)) ||
        upper = suffixlen || lower = suffixlen then false
    else true

def bakSuffix : List UInt8 := ['b'.toUInt8, 'a'.toUInt8, 'k'.toUInt8]
def savSuffix : List UInt8 := ['s'.toUInt8, 'a'.toUInt8, 'v'.toUInt8]
def origSuffix : List UInt8 := ['o'.toUInt8, 'r'.toUInt8, 'i'.toUInt8, 'g'.toUInt8]

/-- `lu_name_is_backup_file(name, namelen, &suffixlen)`: `some suffixlen`
when it returns true. -/
def luNameIsBackupFile (name : List UInt8) : Option Nat :=
  let namelen := name.length
  if namelen > 1 && name.getD (namelen - 2) 0 != '.'.toUInt8 && name.getD (namelen - 1) 0 == '~'.toUInt8 then
    some 1
  else if namelen > 4 && name.getD (namelen - 4) 0 == '.'.toUInt8 &&
      (strncasecmpEq (name.drop (namelen - 3)) bakSuffix 3 ||
        strncasecmpEq (name.drop (namelen - 3)) savSuffix 3) then
    some 4
  else if namelen > 5 && name.getD (namelen - 5) 0 == '.'.toUInt8 &&
      strncasecmpEq (name.drop (namelen - 4)) origSuffix 4 then
    some 5
  else none

/-! ## `lmv_hash_crush` -/

def lmvCrushPgCount : UInt32 := 4096

/-- The part of the name `lmv_hash_crush` hashes: `name++; namelen -= 8;` for
an rsync temporary, `namelen -= 9;` for a `dstripe` one, `namelen -= i;` for a
backup after `LASSERT(i < namelen)`. -/
def crushName (name : List UInt8) : Option (List UInt8) :=
  if luNameIsTempFile name true 6 then some ((name.drop 1).take (name.length - 8))
  else if luNameIsTempFile name false 8 then some (name.take (name.length - 9))
  else match luNameIsBackupFile name with
    | some i => if i < name.length then some (name.take (name.length - i)) else none
    | none => some name

/-- The loop over the stripes: the first one with the highest `crush_hash`
straw, starting from `highest_straw = 0` and `idx = 0`. -/
def crushSelect (pgId count : UInt32) : UInt32 :=
  ((List.range count.toNat).foldl (fun (st : UInt64 × UInt32) i =>
      let straw := (crushHash pgId (UInt32.ofNat i)).toUInt64
      if straw > st.1 then (straw, UInt32.ofNat i) else st) (0, 0)).2

/-- `lmv_hash_crush(count, name, namelen)`. -/
def lmvHashCrush (count : UInt32) (name : List UInt8) : Option UInt32 := do
  let name ← crushName name
  let idx := crushSelect (lmvHashFnv1a lmvCrushPgCount name) count
  if idx < count then some idx else none

/-! ## The hash type and its flags -/

def lmvHashTypeMask : UInt32 := 0x0000ffff
def lmvHashTypeAllChars : UInt32 := 1
def lmvHashTypeFnv1a64 : UInt32 := 2
def lmvHashTypeCrush : UInt32 := 3

def lmvHashFlagMerge : UInt32 := 0x04000000
def lmvHashFlagSplit : UInt32 := 0x08000000
def lmvHashFlagMigration : UInt32 := 0x80000000
def lmvHashFlagLayoutChange : UInt32 := lmvHashFlagMigration ||| lmvHashFlagSplit ||| lmvHashFlagMerge

/-- `lmv_is_known_hash_type(type)`. -/
def lmvIsKnownHashType (type : UInt32) : Bool :=
  type &&& lmvHashTypeMask == lmvHashTypeFnv1a64 || type &&& lmvHashTypeMask == lmvHashTypeAllChars ||
    type &&& lmvHashTypeMask == lmvHashTypeCrush

/-- `lmv_hash_is_splitting(hash)`: both `SPLIT` and `MIGRATION` set. -/
def lmvHashIsSplitting (hash : UInt32) : Bool :=
  hash &&& lmvHashFlagLayoutChange == lmvHashFlagSplit ||| lmvHashFlagMigration

/-- `lmv_hash_is_merging(hash)`: both `MERGE` and `MIGRATION` set. -/
def lmvHashIsMerging (hash : UInt32) : Bool :=
  hash &&& lmvHashFlagLayoutChange == lmvHashFlagMerge ||| lmvHashFlagMigration

/-- `lmv_hash_is_migrating(hash)`: only `MIGRATION` set. -/
def lmvHashIsMigrating (hash : UInt32) : Bool :=
  hash &&& lmvHashFlagLayoutChange == lmvHashFlagMigration

/-! ## `__lmv_name_to_stripe_index` -/

/-- The hash type and stripe count `__lmv_name_to_stripe_index` places the
name by: the migrate hash and offset stand for the layout before a split,
after a merge, and for the source (before) or target (after) stripes of a
migration. -/
def placementLayout (hashType stripeCount migrateHash migrateOffset : UInt32) (newLayout : Bool) :
    UInt32 × UInt32 :=
  if lmvHashIsSplitting hashType then
    if !newLayout then (migrateHash, migrateOffset) else (hashType, stripeCount)
  else if lmvHashIsMerging hashType then
    if newLayout then (migrateHash, migrateOffset) else (hashType, stripeCount)
  else if lmvHashIsMigrating hashType then
    if newLayout then (hashType, migrateOffset) else (migrateHash, stripeCount - migrateOffset)
  else (hashType, stripeCount)

/-- The `switch (hash_type & LMV_HASH_TYPE_MASK)`: the index, or the error
returned for another type; `none` for a failed `LASSERT` in
`lmv_hash_crush`. -/
def lmvHashIndex (hashType count : UInt32) (name : List UInt8) : Option (Except Int UInt32) :=
  if hashType &&& lmvHashTypeMask = lmvHashTypeAllChars then some (.ok (lmvHashAllChars count name))
  else if hashType &&& lmvHashTypeMask = lmvHashTypeFnv1a64 then some (.ok (lmvHashFnv1a count name))
  else if hashType &&& lmvHashTypeMask = lmvHashTypeCrush then (lmvHashCrush count name).map .ok
  else some (.error (-ebadfd))

/-- `__lmv_name_to_stripe_index(hash_type, stripe_count, migrate_hash,
migrate_offset, name, namelen, new_layout)`. -/
def lmvNameToStripeIndexCore (hashType stripeCount migrateHash migrateOffset : UInt32)
    (name : List UInt8) (newLayout : Bool) : Option Int :=
  if name.length = 0 then none
  else if stripeCount = 0 then none
  else
    let (hashType', count) := placementLayout hashType stripeCount migrateHash migrateOffset newLayout
    -- one stripe, or none, needs no hash: `stripe_index` stays 0
    match (if count > 1 then lmvHashIndex hashType' count name else some (.ok 0)) with
    | none => none
    | some (.error e) => some e
    | some (.ok idx) =>
      if ¬ idx < count then none
      else
        -- the source stripes of a migration follow the target ones
        let idx := if !newLayout && lmvHashIsMigrating hashType then idx + migrateOffset else idx
        if ¬ idx < stripeCount then none
        else some (narrowInt idx.toNat)

/-! ## The LMV and its checks -/

def lmvMagicV1 : UInt32 := 0x0CD20CD0
def lmvMagicStripe : UInt32 := 0x0CD40CD0

/-- The words of `struct lmv_mds_md_v1` these functions read, as stored. -/
structure LmvMdsMdV1 where
  lmvMagic : UInt32
  lmvStripeCount : UInt32
  lmvHashType : UInt32
  lmvMigrateOffset : UInt32
  lmvMigrateHash : UInt32
  deriving DecidableEq, Repr

/-- `le32_to_cpu` on a host of the given byte order; `cpu_to_le32` is the
same map. -/
def le32ToCpu (bigEndian : Bool) (x : UInt32) : UInt32 := if bigEndian then swab32 x else x

/-- `__lmv_name_to_stripe_index` on the words of `lmv` read through `rd`. -/
def lmvIndexBy (rd : UInt32 → UInt32) (lmv : LmvMdsMdV1) (name : List UInt8) (newLayout : Bool) :
    Option Int :=
  lmvNameToStripeIndexCore (rd lmv.lmvHashType) (rd lmv.lmvStripeCount) (rd lmv.lmvMigrateHash)
    (rd lmv.lmvMigrateOffset) name newLayout

/-- `lmv_name_to_stripe_index(lmv, name, namelen)`: the layout after a
change, for a master LMV in the host's order or in little-endian order. -/
def lmvNameToStripeIndex (bigEndian : Bool) (lmv : LmvMdsMdV1) (name : List UInt8) : Option Int :=
  if lmv.lmvMagic = lmvMagicV1 then lmvIndexBy id lmv name true
  else if lmv.lmvMagic = le32ToCpu bigEndian lmvMagicV1 then lmvIndexBy (le32ToCpu bigEndian) lmv name true
  else some (-einval)

/-- `lmv_name_to_stripe_index_old(lmv, name, namelen)`: the layout before a
change, for a master or a stripe LMV. -/
def lmvNameToStripeIndexOld (bigEndian : Bool) (lmv : LmvMdsMdV1) (name : List UInt8) : Option Int :=
  if lmv.lmvMagic = lmvMagicV1 || lmv.lmvMagic = lmvMagicStripe then lmvIndexBy id lmv name false
  else if lmv.lmvMagic = le32ToCpu bigEndian lmvMagicV1 || lmv.lmvMagic = le32ToCpu bigEndian lmvMagicStripe then
    lmvIndexBy (le32ToCpu bigEndian) lmv name false
  else some (-einval)

/-- `lmv_is_sane2(lmv)` for a present LMV: a master or stripe LMV, stored in
little-endian order, with stripes and a known hash type. -/
def lmvIsSane2 (bigEndian : Bool) (lmv : LmvMdsMdV1) : Bool :=
  (le32ToCpu bigEndian lmv.lmvMagic == lmvMagicV1 || le32ToCpu bigEndian lmv.lmvMagic == lmvMagicStripe) &&
    le32ToCpu bigEndian lmv.lmvStripeCount != 0 && lmvIsKnownHashType (le32ToCpu bigEndian lmv.lmvHashType)

end Lustre.Lmv
