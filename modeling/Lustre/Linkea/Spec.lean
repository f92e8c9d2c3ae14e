import Mathlib
import Lustre.Linkea

/-! # Link EA: the list of links it stands for

What a link EA is for: an ordered list of links, (parent FID, name) pairs,
with a size budget. Adding a link appends it, unless the packed attribute
would outgrow `MAX_LINKEA_SIZE`, in which case the list is kept and the
attribute is marked as overflowed; deleting removes the first equal link;
shrinking drops the last one.

`LinkeaRefines ld a` says that the buffer `ld` holds exactly the packed
records of `a.recs`, with a consistent header. The main result,
`linkea_run_refines`, is that every run of the C operations from a fresh
`linkea_data_new` refines the run of the list operations: the same return
codes, and at every point a well-formed buffer whose records decode to the
list.

The proof is layered as the C code is: the record codec round trip
(`linkeaEntryUnpack_pack`), the loops by induction over the records they
walk (`linkeaFindWalk_skip` / `linkeaFindWalk_found`,
`linkeaShrinkWalk_spec`, `linkeaDecode_spec`), one lemma per operation,
`linkeaStep_refines`, and lockstep simulation over the run
(`StepRun.run_rel`).
-/

namespace Lustre.Linkea

open ByteCodec

/-! ## The abstract attribute -/

/-- A link: the parent FID and the name under it. -/
abbrev LinkRec := LuFid × LuName

/-- The packed record of a link. -/
def LinkRec.bytes (r : LinkRec) : List UInt8 := (linkeaEntryPack r.2 r.1).2

/-- The length of a link's packed record. -/
def LinkRec.reclen (r : LinkRec) : Nat := linkEaEntrySize + r.2.lnNamelen

/-- The size of the attribute holding the links `rs`, header included. -/
def linkeaSize (rs : List LinkRec) : Nat := linkEaHeaderSize + (rs.map LinkRec.reclen).sum

/-- The abstract link EA: its links and whether it ever overflowed. -/
structure LinkeaAbs where
  recs : List LinkRec
  overflowed : Bool

/-- The abstract operations, with the return codes the C functions give. -/
def linkeaAbsStep (a : LinkeaAbs) : LinkeaOp → Option (Int × LinkeaAbs)
  | .add (some lname) (some pfid) _ _ =>
    if linkeaSize a.recs + LinkRec.reclen (pfid, lname) > maxLinkeaSize then
      some (0, { a with overflowed := true })
    else some (0, { a with recs := a.recs ++ [(pfid, lname)] })
  | .add _ _ _ _ => some (-einval, a)
  | .find lname pfid => some (if (pfid, lname) ∈ a.recs then 0 else -enoent, a)
  | .findDel lname pfid =>
    if (pfid, lname) ∈ a.recs then some (0, { a with recs := a.recs.erase (pfid, lname) })
    else some (-enoent, a)
  | .shrink _ =>
    if a.recs = [] then none
    else
      let rs := a.recs.dropLast
      some (if rs = [] then 0 else linkeaSize rs, ⟨rs, a.overflowed || rs ≠ []⟩)

/-- A run of abstract operations. -/
def linkeaAbsRun (a : LinkeaAbs) (ops : List LinkeaOp) : Option (List Int × LinkeaAbs) :=
  StepRun.run linkeaAbsStep a ops

/-- The buffer `ld` holds the links of `a`: the header counts and sizes
them, the bytes past the header start with their packed records, the size
stays within `MAX_LINKEA_SIZE` while the buffer has room for it, and the
overflow stamp is set exactly when `a` overflowed. -/
structure LinkeaRefines (ld : LinkeaData) (a : LinkeaAbs) : Prop where
  magic : ld.ldLeh.lehMagic = linkEaMagic
  reccount : ld.ldLeh.lehReccount = a.recs.length
  len : ld.ldLeh.lehLen = linkeaSize a.recs
  bytes : a.recs.flatMap LinkRec.bytes <+: ld.ldBuf
  fits : linkeaSize a.recs ≤ maxLinkeaSize
  room : maxLinkeaSize ≤ ld.lbLen
  overflow : ld.ldLeh.lehOverflowTime ≠ 0 ↔ a.overflowed = true

/-! ## Sizes -/

@[simp] theorem linkeaSize_nil : linkeaSize [] = linkEaHeaderSize := rfl

theorem linkeaSize_append (rs ss : List LinkRec) :
    linkeaSize (rs ++ ss) = linkeaSize rs + (ss.map LinkRec.reclen).sum := by
  simp [linkeaSize, List.sum_append, Nat.add_assoc]

theorem linkeaSize_cons (r : LinkRec) (rs : List LinkRec) :
    linkeaSize (r :: rs) = r.reclen + linkeaSize rs := by
  simp [linkeaSize]
  omega

@[simp] theorem length_bytes (r : LinkRec) : r.bytes.length = r.reclen := by
  simp [LinkRec.bytes, LinkRec.reclen, linkeaEntryPack, fidCpuToBe, LuName.lnNamelen,
    linkEaEntrySize]
  omega

theorem length_flatMap_bytes (rs : List LinkRec) :
    (rs.flatMap LinkRec.bytes).length + linkEaHeaderSize = linkeaSize rs := by
  induction rs with
  | nil => rfl
  | cons r rs ih => simp [List.flatMap_cons, linkeaSize_cons, ← ih]; omega

theorem reclen_lt_of_fits {rs : List LinkRec} {r : LinkRec} (hr : r ∈ rs)
    (hfit : linkeaSize rs ≤ maxLinkeaSize) : r.reclen < 65536 := by
  have hle : r.reclen ≤ (rs.map LinkRec.reclen).sum :=
    List.single_le_sum (fun _ _ => Nat.zero_le _) _ (List.mem_map_of_mem hr)
  simp only [linkeaSize, maxLinkeaSize] at hfit
  omega

/-! ## The record codec round trip -/

theorem fidBeToCpu_fidCpuToBe (f : LuFid) (rest : List UInt8) :
    fidBeToCpu (fidCpuToBe f ++ rest) = f := by
  have h8 : (256 : Nat) ^ 8 = 2 ^ 64 := rfl
  have h4 : (256 : Nat) ^ 4 = 2 ^ 32 := rfl
  have hseq : ofBE (toBE 8 f.fSeq.toNat) = f.fSeq.toNat :=
    ofBE_toBE_of_lt (by rw [h8]; exact UInt64.toNat_lt f.fSeq)
  have hoid : ofBE (toBE 4 f.fOid.toNat) = f.fOid.toNat :=
    ofBE_toBE_of_lt (by rw [h4]; exact UInt32.toNat_lt f.fOid)
  have hver : ofBE (toBE 4 f.fVer.toNat) = f.fVer.toNat :=
    ofBE_toBE_of_lt (by rw [h4]; exact UInt32.toNat_lt f.fVer)
  simp [fidBeToCpu, fidCpuToBe, readBytes, List.drop_append, List.drop_eq_nil_of_le, hseq,
    hoid, hver]

/-- The two `lee_reclen` bytes give back a length below `2^16`. -/
theorem reclen_bytes_roundtrip {n : Nat} (h : n < 65536) :
    ((UInt8.ofNat ((n >>> 8) &&& 0xff)).toNat <<< 8 ||| (UInt8.ofNat (n &&& 0xff)).toNat) = n := by
  have hmask : (0xff : Nat) = 2 ^ 8 - 1 := rfl
  rw [hmask, Nat.and_two_pow_sub_one_eq_mod, Nat.and_two_pow_sub_one_eq_mod,
    Nat.shiftRight_eq_div_pow, UInt8.toNat_ofNat', UInt8.toNat_ofNat',
    ← Nat.shiftLeft_add_eq_or_of_lt (by omega), Nat.shiftLeft_eq]
  omega

theorem bytes_eq (r : LinkRec) :
    r.bytes = [UInt8.ofNat ((r.reclen >>> 8) &&& 0xff), UInt8.ofNat (r.reclen &&& 0xff)] ++
      fidCpuToBe r.1 ++ r.2.lnName := rfl

/-- `linkea_entry_unpack` reads back what `linkea_entry_pack` wrote, at any
offset past the header, whatever follows the record. -/
theorem linkeaEntryUnpack_pack {pre post : List UInt8} {r : LinkRec} (hr : r.reclen < 65536) :
    linkeaEntryUnpack (pre ++ r.bytes ++ post) (linkEaHeaderSize + pre.length) =
      (r.reclen, r.2.lnName, r.1) := by
  have hat : recordAt (pre ++ r.bytes ++ post) (linkEaHeaderSize + pre.length) =
      r.bytes ++ post := by
    simp [recordAt, List.append_assoc]
  have hfid : (fidCpuToBe r.1).length = 16 := by simp [fidCpuToBe]
  have hname : r.reclen - linkEaEntrySize = r.2.lnName.length := by
    simp [LinkRec.reclen, LuName.lnNamelen, linkEaEntrySize]
  simp only [linkeaEntryUnpack]
  rw [hat, bytes_eq]
  simp only [List.append_assoc, List.cons_append, List.nil_append, List.getD_cons_zero,
    List.getD_cons_succ, reclen_bytes_roundtrip hr, hname, Prod.mk.injEq, true_and]
  constructor
  · simp [readBytes, linkEaEntrySize, hfid]
  · have hread : readBytes (UInt8.ofNat ((r.reclen >>> 8) &&& 0xff) ::
        UInt8.ofNat (r.reclen &&& 0xff) :: (fidCpuToBe r.1 ++ (r.2.lnName ++ post))) 2 16 =
        fidCpuToBe r.1 ++ [] := by
      simp [readBytes, hfid]
    rw [hread, fidBeToCpu_fidCpuToBe]

/-! ## The lookup test -/

theorem LuName.eq_of_lnName {a b : LuName} (h : a.lnName = b.lnName) : a = b := by
  cases a
  cases b
  simp only at h
  subst h
  rfl

theorem LuName.toNat_ne_zero (n : LuName) : ∀ c ∈ n.lnName, c.toNat ≠ 0 := by
  intro c hc h0
  exact n.lnName_no_nul c hc (UInt8.toNat_inj.mp h0)

/-- On a record `linkea_entry_pack` wrote, the test of `linkea_links_find`
is equality of links: names free of `NUL` make the `strncmp` a byte
comparison. -/
theorem linkeaRecMatches_iff (r : LinkRec) (lname : LuName) (pfid : LuFid) :
    linkeaRecMatches r.reclen r.2.lnName r.1 lname pfid = true ↔ r = (pfid, lname) := by
  obtain ⟨fid, name⟩ := r
  have hlen : LinkRec.reclen (fid, name) - linkEaEntrySize = name.lnNamelen := by
    simp [LinkRec.reclen, linkEaEntrySize]
  simp only [linkeaRecMatches, hlen, Bool.and_eq_true, decide_eq_true_eq, Prod.mk.injEq]
  constructor
  · rintro ⟨⟨hn, hf⟩, hs⟩
    have hcmp := (strncmp_eq_zero_iff (fun _ _ h => UInt8.toNat_inj.mp h) name.lnNamelen
      name.lnName lname.lnName le_rfl (by simp [LuName.lnNamelen] at hn ⊢; omega)
      (fun c hc => name.toNat_ne_zero c (List.mem_of_mem_take hc))
      (fun c hc => lname.toNat_ne_zero c (List.mem_of_mem_take hc))).mp hs
    have hn' : name.lnName.length = lname.lnName.length := hn
    have hname : name.lnName = lname.lnName := by
      rw [LuName.lnNamelen, List.take_length, hn', List.take_length] at hcmp
      exact hcmp
    exact ⟨hf, LuName.eq_of_lnName hname⟩
  · rintro ⟨rfl, rfl⟩
    refine ⟨⟨rfl, rfl⟩, ?_⟩
    exact (strncmp_eq_zero_iff (fun _ _ h => UInt8.toNat_inj.mp h) _ _ _ le_rfl le_rfl
      (fun c hc => name.toNat_ne_zero c (List.mem_of_mem_take hc))
      (fun c hc => name.toNat_ne_zero c (List.mem_of_mem_take hc))).mpr rfl

/-! ## The loops -/

section Walks

variable {buf : List UInt8}

/-- The offset of the record that follows the links `rs`. -/
def recOffset (rs : List LinkRec) : Nat := linkEaHeaderSize + (rs.flatMap LinkRec.bytes).length

theorem recOffset_append_singleton (rs : List LinkRec) (r : LinkRec) :
    recOffset (rs ++ [r]) = recOffset rs + r.reclen := by
  simp [recOffset, List.flatMap_append]
  omega

/-- The record after the packed links `done` unpacks to the next link. -/
theorem linkeaEntryUnpack_of_prefix {done : List LinkRec} {r : LinkRec}
    (h : (done ++ [r]).flatMap LinkRec.bytes <+: buf) (hr : r.reclen < 65536) :
    linkeaEntryUnpack buf (recOffset done) = (r.reclen, r.2.lnName, r.1) := by
  obtain ⟨t, rfl⟩ := h
  have hbuf : (done ++ [r]).flatMap LinkRec.bytes ++ t =
      done.flatMap LinkRec.bytes ++ r.bytes ++ t := by
    simp [List.flatMap_append]
  rw [hbuf, recOffset]
  exact linkeaEntryUnpack_pack hr

theorem prefix_of_append_prefix {done rest : List LinkRec}
    (h : (done ++ rest).flatMap LinkRec.bytes <+: buf) {ys : List LinkRec} (hys : ys <+: rest) :
    (done ++ ys).flatMap LinkRec.bytes <+: buf := by
  obtain ⟨zs, rfl⟩ := hys
  refine List.IsPrefix.trans ?_ h
  simp [List.flatMap_append, ← List.append_assoc]

variable (lname : LuName) (pfid : LuFid)

/-- The `linkea_links_find` walk passes over links other than the one it
looks for, whatever the length it carries. -/
theorem linkeaFindWalk_skip : ∀ (A done : List LinkRec) (k rl : Nat),
    (done ++ A).flatMap LinkRec.bytes <+: buf → (pfid, lname) ∉ A →
    (∀ r ∈ A, r.reclen < 65536) →
    ∃ rl', linkeaFindWalk buf lname pfid (A.length + k) (recOffset done) rl =
      linkeaFindWalk buf lname pfid k (recOffset (done ++ A)) rl'
  | [], done, k, rl, _, _, _ => ⟨rl, by simp⟩
  | r :: A, done, k, rl, hpre, hnot, hlt => by
    have hr : r.reclen < 65536 := hlt r (by simp)
    have hne : r ≠ (pfid, lname) := fun h => hnot (by simp [h])
    have hpre1 : (done ++ [r]).flatMap LinkRec.bytes <+: buf :=
      prefix_of_append_prefix hpre (by simp)
    have hstep : linkeaFindWalk buf lname pfid (A.length + k + 1) (recOffset done) rl =
        linkeaFindWalk buf lname pfid (A.length + k) (recOffset (done ++ [r])) r.reclen := by
      have hm : linkeaRecMatches r.reclen r.2.lnName r.1 lname pfid = false := by
        simpa [← Bool.not_eq_true, linkeaRecMatches_iff] using hne
      simp [linkeaFindWalk, linkeaEntryUnpack_of_prefix hpre1 hr, hm,
        recOffset_append_singleton]
    obtain ⟨rl', hrest⟩ := linkeaFindWalk_skip A (done ++ [r]) k r.reclen
      (by simpa using hpre) (fun h => hnot (by simp [h])) (fun x hx => hlt x (by simp [hx]))
    refine ⟨rl', ?_⟩
    rw [List.length_cons, Nat.add_right_comm, hstep, hrest, List.append_assoc,
      List.singleton_append]

/-- The walk stops on the link it looks for, keeping its offset and length. -/
theorem linkeaFindWalk_found (done : List LinkRec) (k rl : Nat)
    (hpre : (done ++ [(pfid, lname)]).flatMap LinkRec.bytes <+: buf)
    (hlt : LinkRec.reclen (pfid, lname) < 65536) :
    linkeaFindWalk buf lname pfid (k + 1) (recOffset done) rl =
      (k + 1, recOffset done, LinkRec.reclen (pfid, lname)) := by
  have hm : linkeaRecMatches (LinkRec.reclen (pfid, lname)) lname.lnName pfid lname pfid := by
    simpa using (linkeaRecMatches_iff (pfid, lname) lname pfid).mpr rfl
  simp [linkeaFindWalk, linkeaEntryUnpack_of_prefix hpre hlt, hm]

/-- The `linkea_overflow_shrink` walk over the links `A` adds up their
lengths and leaves the cursor just past them. -/
theorem linkeaShrinkWalk_spec : ∀ (A done : List LinkRec) (len rl : Nat),
    (done ++ A).flatMap LinkRec.bytes <+: buf → (∀ r ∈ A, r.reclen < 65536) →
    ∃ rl', linkeaShrinkWalk buf A.length len (recOffset done) rl =
      (len + (A.flatMap LinkRec.bytes).length, recOffset (done ++ A), rl')
  | [], done, len, rl, _, _ => ⟨rl, by simp [linkeaShrinkWalk]⟩
  | r :: A, done, len, rl, hpre, hlt => by
    have hr : r.reclen < 65536 := hlt r (by simp)
    have hpre1 : (done ++ [r]).flatMap LinkRec.bytes <+: buf :=
      prefix_of_append_prefix hpre (by simp)
    obtain ⟨rl', hrest⟩ := linkeaShrinkWalk_spec A (done ++ [r]) (len + r.reclen) r.reclen
      (by simpa using hpre) (fun x hx => hlt x (by simp [hx]))
    refine ⟨rl', ?_⟩
    simp only [List.length_cons, linkeaShrinkWalk, linkeaEntryUnpack_of_prefix hpre1 hr]
    rw [← recOffset_append_singleton, hrest]
    simp [List.flatMap_cons, Nat.add_assoc]

/-- Decoding the records from the first on gives the links back. -/
theorem linkeaDecode_spec : ∀ (A done : List LinkRec),
    (done ++ A).flatMap LinkRec.bytes <+: buf → (∀ r ∈ A, r.reclen < 65536) →
    linkeaDecode buf A.length (recOffset done) = A.map fun r => (r.reclen, r.2.lnName, r.1)
  | [], _, _, _ => rfl
  | r :: A, done, hpre, hlt => by
    have hr : r.reclen < 65536 := hlt r (by simp)
    have hpre1 : (done ++ [r]).flatMap LinkRec.bytes <+: buf :=
      prefix_of_append_prefix hpre (by simp)
    have hrest := linkeaDecode_spec A (done ++ [r]) (by simpa using hpre)
      (fun x hx => hlt x (by simp [hx]))
    rw [List.length_cons, linkeaDecode, linkeaEntryUnpack_of_prefix hpre1 hr,
      ← recOffset_append_singleton, hrest, List.map_cons]

end Walks

/-! ## One lemma per operation -/

theorem overflowStamp_ne_zero (now : Nat) : overflowStamp now ≠ 0 := by
  unfold overflowStamp
  split
  · next h => rw [h]; decide
  · next h => exact h

theorem linkeaEntryPack_eq (lname : LuName) (pfid : LuFid) :
    linkeaEntryPack lname pfid = (LinkRec.reclen (pfid, lname), LinkRec.bytes (pfid, lname)) := rfl

section Ops

variable {ld : LinkeaData} {a : LinkeaAbs}

theorem LinkeaRefines.buf_eq (h : LinkeaRefines ld a) :
    ∃ tail, ld.ldBuf = a.recs.flatMap LinkRec.bytes ++ tail := by
  obtain ⟨tail, ht⟩ := h.bytes
  exact ⟨tail, ht.symm⟩

theorem LinkeaRefines.reclen_lt (h : LinkeaRefines ld a) : ∀ r ∈ a.recs, r.reclen < 65536 :=
  fun _ hr => reclen_lt_of_fits hr h.fits

/-- `linkea_add_buf` within the size limit appends the record in place: the
buffer already has room, so it is never grown. -/
theorem linkeaAddBuf_append (h : LinkeaRefines ld a) {lname : LuName} {pfid : LuFid}
    (now : Nat) (allocOk : Bool)
    (hfit : ¬ linkeaSize a.recs + LinkRec.reclen (pfid, lname) > maxLinkeaSize) :
    ∃ ld', linkeaAddBuf ld (some lname) (some pfid) now allocOk = (0, ld') ∧
      LinkeaRefines ld' ⟨a.recs ++ [(pfid, lname)], a.overflowed⟩ := by
  obtain ⟨tail, htail⟩ := h.buf_eq
  have hrl : lname.lnNamelen + linkEaEntrySize = LinkRec.reclen (pfid, lname) := by
    simp [LinkRec.reclen, Nat.add_comm]
  have hroom := h.room
  have hlen := length_flatMap_bytes a.recs
  have hgrow : luBufCheckAndGrow ld.ldBuf (ld.ldLeh.lehLen + LinkRec.reclen (pfid, lname))
      allocOk = some ld.ldBuf := by
    rw [luBufCheckAndGrow, if_pos]
    rw [h.len]
    simp only [LinkeaData.lbLen, maxLinkeaSize] at hroom hfit
    omega
  have hoff : ld.ldLeh.lehLen - linkEaHeaderSize = (a.recs.flatMap LinkRec.bytes).length := by
    rw [h.len, ← hlen]
    omega
  have htl : (LinkRec.bytes (pfid, lname)).length ≤ tail.length := by
    have hb : ld.ldBuf.length = (a.recs.flatMap LinkRec.bytes).length + tail.length := by
      simp [htail]
    simp only [LinkeaData.lbLen, maxLinkeaSize, linkeaSize, linkEaHeaderSize] at hroom hfit hlen
    rw [length_bytes]
    omega
  refine ⟨{ ldLeh := { ld.ldLeh with lehLen := ld.ldLeh.lehLen + LinkRec.reclen (pfid, lname),
                                     lehReccount := ld.ldLeh.lehReccount + 1 },
             ldBuf := writeBytes ld.ldBuf (ld.ldLeh.lehLen - linkEaHeaderSize)
               (LinkRec.bytes (pfid, lname)),
             ldLee := some ld.ldLeh.lehLen,
             ldReclen := LinkRec.reclen (pfid, lname) }, ?_, ?_⟩
  · have hnot : ¬ ld.ldLeh.lehLen + LinkRec.reclen (pfid, lname) > maxLinkeaSize := by
      rw [h.len]
      exact hfit
    simp only [linkeaAddBuf, hrl, if_neg hnot, hgrow, linkeaEntryPack_eq]
  · rw [hoff, htail, writeBytes_append]
    constructor
    · exact h.magic
    · simp [h.reccount]
    · simp [h.len, linkeaSize_append]
    · simp [List.flatMap_append]
    · simpa [linkeaSize_append] using Nat.le_of_not_gt hfit
    · simp only [LinkeaData.lbLen, List.length_append, List.length_drop] at hroom ⊢
      rw [htail] at hroom
      simp only [List.length_append] at hroom
      omega
    · exact h.overflow

/-- Past the size limit `linkea_add_buf` keeps the records and stamps the
overflow time. -/
theorem linkeaAddBuf_overflow (h : LinkeaRefines ld a) {lname : LuName} {pfid : LuFid}
    (now : Nat) (allocOk : Bool)
    (hover : linkeaSize a.recs + LinkRec.reclen (pfid, lname) > maxLinkeaSize) :
    ∃ ld', linkeaAddBuf ld (some lname) (some pfid) now allocOk = (0, ld') ∧
      LinkeaRefines ld' ⟨a.recs, true⟩ := by
  have hrl : lname.lnNamelen + linkEaEntrySize = LinkRec.reclen (pfid, lname) := by
    simp [LinkRec.reclen, Nat.add_comm]
  refine ⟨{ ld with ldLeh := { ld.ldLeh with lehOverflowTime := overflowStamp now } }, ?_, ?_⟩
  · have hgt : ld.ldLeh.lehLen + LinkRec.reclen (pfid, lname) > maxLinkeaSize := by
      rw [h.len]
      exact hover
    simp only [linkeaAddBuf, hrl, if_pos hgt]
  · exact { magic := h.magic, reccount := h.reccount, len := h.len, bytes := h.bytes,
            fits := h.fits, room := h.room
            overflow := by simpa using overflowStamp_ne_zero now }

/-- The cursor fields play no part in the refinement. -/
theorem LinkeaRefines.cursor (h : LinkeaRefines ld a) (lee : Option Nat) (rl : Nat) :
    LinkeaRefines { ld with ldLee := lee, ldReclen := rl } a :=
  ⟨h.magic, h.reccount, h.len, h.bytes, h.fits, h.room, h.overflow⟩

theorem LinkeaRefines.prefix_of (h : LinkeaRefines ld a) (ys : List LinkRec)
    (hys : ys <+: a.recs) : ([] ++ ys).flatMap LinkRec.bytes <+: ld.ldBuf :=
  prefix_of_append_prefix (show ([] ++ a.recs).flatMap LinkRec.bytes <+: ld.ldBuf by
    simpa using h.bytes) hys

/-- `linkea_links_find` on a link of the attribute leaves the cursor on its
first occurrence. -/
theorem linkeaLinksFind_found (h : LinkeaRefines ld a) {lname : LuName} {pfid : LuFid}
    (hmem : (pfid, lname) ∈ a.recs) :
    ∃ A B, a.recs = A ++ (pfid, lname) :: B ∧ a.recs.erase (pfid, lname) = A ++ B ∧
      linkeaLinksFind ld lname pfid =
        (0, { ld with ldLee := some (recOffset A), ldReclen := LinkRec.reclen (pfid, lname) }) := by
  obtain ⟨A, B, hnA, hrecs, herase⟩ := List.exists_erase_eq hmem
  refine ⟨A, B, hrecs, herase, ?_⟩
  have hlt := h.reclen_lt
  rw [hrecs] at hlt
  have hpos : ld.ldLeh.lehReccount > 0 := by simp [h.reccount, hrecs]
  have hcount : ld.ldLeh.lehReccount = A.length + (B.length + 1) := by
    simp [h.reccount, hrecs]
  obtain ⟨rl', hskip⟩ := linkeaFindWalk_skip lname pfid A [] (B.length + 1) ld.ldReclen
    (h.prefix_of A (by rw [hrecs]; exact List.prefix_append _ _)) hnA
    (fun r hr => hlt r (by simp [hr]))
  have hpre : (A ++ [(pfid, lname)]).flatMap LinkRec.bytes <+: ld.ldBuf := by
    simpa using h.prefix_of (A ++ [(pfid, lname)]) (by rw [hrecs]; exact ⟨B, by simp⟩)
  have hfound := linkeaFindWalk_found lname pfid A B.length rl' hpre (hlt _ (by simp))
  have hstart : recOffset [] = linkEaHeaderSize := rfl
  have hwalk : linkeaFindWalk ld.ldBuf lname pfid ld.ldLeh.lehReccount linkEaHeaderSize
      ld.ldReclen = (B.length + 1, recOffset A, LinkRec.reclen (pfid, lname)) := by
    rw [hcount, ← hstart, hskip, List.nil_append, hfound]
  simp only [linkeaLinksFind, if_pos hpos, hwalk]
  simp

/-- `linkea_links_find` on a link the attribute lacks returns `-ENOENT`
and clears the cursor. -/
theorem linkeaLinksFind_missing (h : LinkeaRefines ld a) {lname : LuName} {pfid : LuFid}
    (hnot : (pfid, lname) ∉ a.recs) :
    linkeaLinksFind ld lname pfid = (-enoent, { ld with ldLee := none, ldReclen := 0 }) := by
  by_cases hnil : a.recs = []
  · have hzero : ld.ldLeh.lehReccount = 0 := by simp [h.reccount, hnil]
    simp [linkeaLinksFind, hzero, linkeaFindWalk]
  · have hpos : ld.ldLeh.lehReccount > 0 := by
      simp [h.reccount, List.length_pos_iff, hnil]
    obtain ⟨rl', hskip⟩ := linkeaFindWalk_skip lname pfid a.recs [] 0 ld.ldReclen
      (h.prefix_of a.recs (List.prefix_refl _)) hnot h.reclen_lt
    have hstart : recOffset [] = linkEaHeaderSize := rfl
    have hwalk : (linkeaFindWalk ld.ldBuf lname pfid ld.ldLeh.lehReccount linkEaHeaderSize
        ld.ldReclen).1 = 0 := by
      rw [h.reccount, ← hstart, ← Nat.add_zero a.recs.length, hskip]
      rfl
    simp only [linkeaLinksFind, if_pos hpos, hwalk]
    simp

/-- `linkea_del_buf` on the cursor `linkea_links_find` left removes exactly
that record: the `memmove` length, computed from the already shortened
`leh_len`, is the length of the records after it. -/
theorem linkeaDelBuf_found (h : LinkeaRefines ld a) {A B : List LinkRec} {t : LinkRec}
    (hrecs : a.recs = A ++ t :: B) :
    ∃ ld', linkeaDelBuf { ld with ldLee := some (recOffset A), ldReclen := t.reclen } = some ld' ∧
      LinkeaRefines ld' ⟨A ++ B, a.overflowed⟩ := by
  obtain ⟨tail, htail⟩ := h.buf_eq
  have hbuf : ld.ldBuf = A.flatMap LinkRec.bytes ++ t.bytes ++ (B.flatMap LinkRec.bytes ++ tail) := by
    rw [htail, hrecs]
    simp [List.flatMap_append]
  have hL : ld.ldLeh.lehLen =
      linkEaHeaderSize + (A.flatMap LinkRec.bytes).length + t.reclen +
        (B.flatMap LinkRec.bytes).length := by
    rw [h.len, hrecs, ← length_flatMap_bytes]
    simp [List.flatMap_append]
    omega
  have hcount : ld.ldLeh.lehReccount ≠ 0 := by simp [h.reccount, hrecs]
  have hle : ¬ ld.ldLeh.lehLen - t.reclen < recOffset A := by
    simp only [recOffset]
    omega
  have hoff : recOffset A - linkEaHeaderSize = (A.flatMap LinkRec.bytes).length := by
    simp [recOffset, linkEaHeaderSize]
  have hn : ld.ldLeh.lehLen - t.reclen - recOffset A = (B.flatMap LinkRec.bytes).length := by
    simp only [recOffset]
    omega
  have hmove : memmove ld.ldBuf (recOffset A - linkEaHeaderSize)
      (recOffset A - linkEaHeaderSize + t.reclen) (ld.ldLeh.lehLen - t.reclen - recOffset A) =
      A.flatMap LinkRec.bytes ++ B.flatMap LinkRec.bytes ++
        (t.bytes ++ (B.flatMap LinkRec.bytes ++ tail)).drop (B.flatMap LinkRec.bytes).length := by
    rw [hoff, hn, hbuf, ← length_bytes t,
      memmove_append (by simp : (B.flatMap LinkRec.bytes).length ≤
        (B.flatMap LinkRec.bytes ++ tail).length)]
    simp
  simp only [linkeaDelBuf, if_neg hcount, if_neg hle]
  refine ⟨_, rfl, ?_⟩
  constructor
  · exact h.magic
  · simp [h.reccount, hrecs]
  · simp only
    rw [hL, ← length_flatMap_bytes]
    simp [List.flatMap_append]
    omega
  · simp only
    rw [hmove, List.flatMap_append]
    exact List.prefix_append _ _
  · have := h.fits
    rw [hrecs] at this
    simp only [linkeaSize_append, List.map_cons, List.sum_cons] at this ⊢
    omega
  · have hroom := h.room
    simp only [LinkeaData.lbLen] at hroom ⊢
    rw [hmove]
    rw [hbuf] at hroom
    simp only [List.length_append, List.length_drop, length_bytes] at hroom ⊢
    omega
  · exact h.overflow

theorem lehSwab_of_magic {leh : LinkEaHeader} (h : leh.lehMagic = linkEaMagic) :
    lehSwab leh = leh := by
  have hne : linkEaMagic ≠ swab32 linkEaMagic := by decide
  simp [lehSwab, h, hne]

/-- `linkea_overflow_shrink` drops the last record; the attribute is stamped
as overflowed unless it became empty. -/
theorem linkeaOverflowShrink_drop (h : LinkeaRefines ld a) (hne : a.recs ≠ []) (now : Nat) :
    ∃ ld', linkeaOverflowShrink ld now =
        some (if a.recs.dropLast = [] then 0 else (linkeaSize a.recs.dropLast : Int), ld') ∧
      LinkeaRefines ld' ⟨a.recs.dropLast, a.overflowed || a.recs.dropLast ≠ []⟩ := by
  have hsplit := List.dropLast_append_getLast hne
  have hcount : ld.ldLeh.lehReccount ≠ 0 := by simp [h.reccount, hne]
  have hn : ld.ldLeh.lehReccount - 1 = a.recs.dropLast.length := by simp [h.reccount]
  have hfit : linkeaSize a.recs.dropLast ≤ maxLinkeaSize := by
    have := h.fits
    rw [← hsplit, linkeaSize_append] at this
    omega
  by_cases hnil : a.recs.dropLast = []
  · have hzero : ld.ldLeh.lehReccount - 1 = 0 := by simp [hn, hnil]
    simp only [linkeaOverflowShrink, lehSwab_of_magic h.magic, if_neg hcount, if_pos hzero,
      if_pos hnil]
    refine ⟨_, rfl, ?_⟩
    exact { magic := h.magic, reccount := by simp [hnil], len := by simp [hnil],
            bytes := by simp [hnil], fits := by simp [hnil, maxLinkeaSize, linkEaHeaderSize],
            room := h.room, overflow := by simpa [hnil] using h.overflow }
  · have hpos : ld.ldLeh.lehReccount - 1 ≠ 0 := by
      rw [hn]
      exact fun h0 => hnil (List.eq_nil_of_length_eq_zero h0)
    have hpre : ([] ++ a.recs.dropLast).flatMap LinkRec.bytes <+: ld.ldBuf :=
      h.prefix_of a.recs.dropLast (List.dropLast_prefix _)
    obtain ⟨rl', hwalk⟩ := linkeaShrinkWalk_spec a.recs.dropLast [] linkEaHeaderSize 0 hpre
      (fun r hr => h.reclen_lt r (List.mem_of_mem_dropLast hr))
    have hstart : recOffset [] = linkEaHeaderSize := rfl
    rw [hstart, ← hn, List.nil_append] at hwalk
    simp only [linkeaOverflowShrink, lehSwab_of_magic h.magic, if_neg hcount, if_neg hpos,
      hwalk, if_neg hnil]
    have hlen : linkEaHeaderSize + (a.recs.dropLast.flatMap LinkRec.bytes).length =
        linkeaSize a.recs.dropLast := by
      rw [← length_flatMap_bytes]
      omega
    rw [hlen]
    refine ⟨_, rfl, ?_⟩
    exact { magic := h.magic, reccount := by simp [hn], len := rfl,
            bytes := by simpa using hpre, fits := hfit, room := h.room
            overflow := by simpa [hnil] using overflowStamp_ne_zero now }

theorem linkeaOverflowShrink_nil (h : LinkeaRefines ld a) (hnil : a.recs = []) (now : Nat) :
    linkeaOverflowShrink ld now = none := by
  have hzero : ld.ldLeh.lehReccount = 0 := by simp [h.reccount, hnil]
  simp [linkeaOverflowShrink, lehSwab_of_magic h.magic, hzero]

theorem LinkeaRefines.decode (h : LinkeaRefines ld a) :
    linkeaDecode ld.ldBuf ld.ldLeh.lehReccount linkEaHeaderSize =
      a.recs.map fun r => (r.reclen, r.2.lnName, r.1) := by
  have hstart : recOffset [] = linkEaHeaderSize := rfl
  rw [h.reccount, ← hstart]
  exact linkeaDecode_spec a.recs [] (h.prefix_of a.recs (List.prefix_refl _)) h.reclen_lt

/-! ## Runs -/

/-- Every C operation agrees with its list counterpart: the same return
code, and the refinement kept. -/
theorem linkeaStep_refines (h : LinkeaRefines ld a) :
    ∀ op, StepRun.Agree LinkeaRefines (linkeaStep ld op) (linkeaAbsStep a op)
  | .add (some lname) (some pfid) now allocOk => by
    by_cases hover : linkeaSize a.recs + LinkRec.reclen (pfid, lname) > maxLinkeaSize
    · obtain ⟨ld', hadd, h'⟩ := linkeaAddBuf_overflow h now allocOk hover
      simp only [linkeaStep, linkeaAbsStep, if_pos hover, hadd]
      exact .some ⟨rfl, h'⟩
    · obtain ⟨ld', hadd, h'⟩ := linkeaAddBuf_append h now allocOk hover
      simp only [linkeaStep, linkeaAbsStep, if_neg hover, hadd]
      exact .some ⟨rfl, h'⟩
  | .add none _ _ _ => .some ⟨rfl, h⟩
  | .add (some _) none _ _ => .some ⟨rfl, h⟩
  | .find lname pfid => by
    by_cases hmem : (pfid, lname) ∈ a.recs
    · obtain ⟨A, B, -, -, hfind⟩ := linkeaLinksFind_found h hmem
      simp only [linkeaStep, linkeaAbsStep, hfind, if_pos hmem]
      exact .some ⟨rfl, h.cursor _ _⟩
    · simp only [linkeaStep, linkeaAbsStep, linkeaLinksFind_missing h hmem, if_neg hmem]
      exact .some ⟨rfl, h.cursor _ _⟩
  | .findDel lname pfid => by
    by_cases hmem : (pfid, lname) ∈ a.recs
    · -- find leaves the cursor on the first occurrence, which del removes
      obtain ⟨A, B, hrecs, herase, hfind⟩ := linkeaLinksFind_found h hmem
      obtain ⟨ld', hdel, h'⟩ := linkeaDelBuf_found h hrecs
      simp only [linkeaStep, linkeaAbsStep, hfind, if_pos hmem, hdel]
      refine .some ⟨rfl, ?_⟩
      show LinkeaRefines ld' ⟨a.recs.erase (pfid, lname), a.overflowed⟩
      rw [herase]
      exact h'
    · have hne : (-enoent : Int) ≠ 0 := by decide
      simp only [linkeaStep, linkeaAbsStep, linkeaLinksFind_missing h hmem, if_neg hmem,
        if_neg hne]
      exact .some ⟨rfl, h.cursor _ _⟩
  | .shrink now => by
    by_cases hnil : a.recs = []
    · simp only [linkeaStep, linkeaAbsStep, linkeaOverflowShrink_nil h hnil now, if_pos hnil]
      exact .none
    · obtain ⟨ld', hshrink, h'⟩ := linkeaOverflowShrink_drop h hnil now
      simp only [linkeaStep, linkeaAbsStep, hshrink, if_neg hnil]
      exact .some ⟨rfl, h'⟩

end Ops

theorem luBufCheckAndAlloc_length {buf : LuBuf} {allocOk : Bool} {l : List UInt8}
    (h : luBufCheckAndAlloc buf allocOk = some l) : pageSize ≤ l.length := by
  unfold luBufCheckAndAlloc at h
  split at h
  · split at h
    · split at h
      · cases h
        simp
      · cases h
    · cases h
      omega
  · split at h
    · cases h
      simp
    · cases h

/-- A fresh `linkea_data_new` holds no links. -/
theorem linkeaDataNew_refines {buf : LuBuf} {allocOk : Bool} {ld : LinkeaData}
    (h : linkeaDataNew buf allocOk = .ok ld) : LinkeaRefines ld ⟨[], false⟩ := by
  unfold linkeaDataNew at h
  split at h
  · cases h
  · next l hl =>
    cases h
    have hlen := luBufCheckAndAlloc_length hl
    exact { magic := rfl, reccount := rfl, len := rfl, bytes := List.nil_prefix,
            fits := by decide
            room := by
              simp only [LinkeaData.lbLen, List.length_drop, pageSize, maxLinkeaSize,
                linkEaHeaderSize] at hlen ⊢
              omega
            overflow := by simp }

theorem linkea_run_refines (buf : LuBuf) (allocOk : Bool) (ops : List LinkeaOp) :
    match linkeaDataNew buf allocOk with
    | .error rc => rc = -enomem
    | .ok ld => StepRun.Agree
        (fun ld' a => LinkeaRefines ld' a ∧
          linkeaDecode ld'.ldBuf ld'.ldLeh.lehReccount linkEaHeaderSize =
            a.recs.map fun r => (r.reclen, r.2.lnName, r.1))
        (linkeaRun ld ops) (linkeaAbsRun ⟨[], false⟩ ops) := by
  split
  · next rc hnew =>
    unfold linkeaDataNew at hnew
    split at hnew <;> cases hnew
    rfl
  · next ld hnew =>
    have hrun := StepRun.run_rel linkeaStep linkeaAbsStep LinkeaRefines
      (fun _ _ op h => linkeaStep_refines h op) ops ld ⟨[], false⟩ (linkeaDataNew_refines hnew)
    exact hrun.mono fun _ _ h => ⟨h, h.decode⟩

end Lustre.Linkea
